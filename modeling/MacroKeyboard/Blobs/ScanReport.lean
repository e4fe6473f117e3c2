import MacroKeyboard.Blobs.Scan

namespace MacroKeyboard.Blobs.ScanReport

section Process

variable {γ : Type} (calls : ScanCalls) (visit : BlobEntry → γ → AppError × γ) {name : Name} {node : Node}
  (context : ScanContext γ)

/-- What one entry does: its stat fails, the array is full, or it is accounted for. -/
theorem processEntry_cases (hsize : ∀ content, node = .file content → content.length < 2 ^ 31) :
    (processEntry calls (.entriesOnly visit) name node context = (.io, context) ∧
      isNamed name = true ∧ calls.statPath name = false) ∨
    (processEntry calls (.entriesOnly visit) name node context = (.internal, context) ∧
      calls.appendEntry context.entries.length = false ∧ (blobOf (name, node)).isSome = true) ∨
    (processEntry calls (.entriesOnly visit) name node context = (.none, context.add (name, node)) ∧
      (isNamed name = true → calls.statPath name = true)) := by
  unfold processEntry ScanContext.add isTemporary blobOf isNamed
  cases hblob : parseFilename name with
  | none =>
    cases htemporary : parseTemporaryFilename name with
    | none =>
      right
      right
      exact ⟨rfl, nofun⟩
    | some _ =>
      cases hstat : calls.statPath name with
      | false =>
        left
        exact ⟨rfl, rfl, rfl⟩
      | true =>
        right
        right
        cases node with
        | file content => exact ⟨rfl, fun _ => rfl⟩
        | directory => exact ⟨rfl, fun _ => rfl⟩
  | some blobId =>
    have htemporary : parseTemporaryFilename name = none := by
      cases h : parseTemporaryFilename name with
      | none => rfl
      | some _ =>
        have hsome : (parseTemporaryFilename name).isSome = true := by
          rw [h]
          rfl
        have hnone := parseFilename_eq_none hsome
        rw [hblob] at hnone
        cases hnone
    rw [htemporary]
    cases hstat : calls.statPath name with
    | false =>
      left
      exact ⟨rfl, rfl, rfl⟩
    | true =>
      right
      cases node with
      | directory =>
        right
        exact ⟨rfl, fun _ => rfl⟩
      | file content =>
        have hfits : ¬ content.length > sizeMax := by
          have hlt := hsize content rfl
          unfold sizeMax
          omega
        cases happend : calls.appendEntry context.entries.length with
        | false =>
          left
          exact ⟨by simp [hfits], rfl, rfl⟩
        | true =>
          right
          exact ⟨by simp [hfits], fun _ => rfl⟩

end Process

section Entries

variable {γ : Type} (visit : BlobEntry → γ → AppError × γ) (calls : ScanCalls) {stream : List (Name × Node)}

def entriesOf (stream : List (Name × Node)) : List (Name × Node) := stream.filter (fun entry => !isDotEntry entry.1)

def Sized (stream : List (Name × Node)) : Prop :=
  ∀ entry ∈ stream, ∀ content, entry.2 = .file content → content.length < 2 ^ 31

theorem entriesOf_dot {name : Name} {node : Node} (h : isDotEntry name = true) :
    entriesOf ((name, node) :: stream) = entriesOf stream :=
  List.filter_cons_of_neg (by simp [h])

theorem entriesOf_cons {name : Name} {node : Node} (h : ¬ isDotEntry name = true) :
    entriesOf ((name, node) :: stream) = (name, node) :: entriesOf stream :=
  List.filter_cons_of_pos (by simp [h])

/-- A scan to the end of the directory has accounted for each entry. -/
theorem scanEntries_success (hsizes : Sized stream) (index : Nat) (context : ScanContext γ)
    (h : (scanEntries calls (.entriesOnly visit) index stream context).1 = .none) :
    (scanEntries calls (.entriesOnly visit) index stream context).2 = (entriesOf stream).foldl ScanContext.add context ∧
      ∀ entry ∈ entriesOf stream, isNamed entry.1 = true → calls.statPath entry.1 = true := by
  induction stream generalizing index context with
  | nil => exact ⟨rfl, fun _ hmem => absurd hmem List.not_mem_nil⟩
  | cons entry rest ih =>
    obtain ⟨name, node⟩ := entry
    have hrest : Sized rest := fun entry hmem => hsizes entry (List.mem_cons_of_mem _ hmem)
    unfold scanEntries at h ⊢
    split at h
    · cases h
    next hread =>
      rw [if_neg hread]
      split at h
      · next hdot =>
        rw [if_pos hdot, entriesOf_dot hdot]
        exact ih hrest _ _ h
      · next hdot =>
        rw [if_neg hdot, entriesOf_cons hdot]
        rcases processEntry_cases calls visit context
          (hsizes (name, node) List.mem_cons_self) with ⟨heq, -, -⟩ | ⟨heq, -⟩ | ⟨heq, hstat⟩
        · rw [heq] at h
          cases h
        · rw [heq] at h
          cases h
        · rw [heq] at h ⊢
          obtain ⟨hlast, hall⟩ := ih hrest _ _ h
          refine ⟨hlast, ?_⟩
          intro other hmem
          rcases List.mem_cons.mp hmem with rfl | hmem
          · exact hstat
          · exact hall other hmem

/-- Nothing is visited before the end of the directory. -/
theorem scanEntries_observed (hsizes : Sized stream) (index : Nat) (context : ScanContext γ) :
    (scanEntries calls (.entriesOnly visit) index stream context).2.observed = context.observed := by
  induction stream generalizing index context with
  | nil => rfl
  | cons entry rest ih =>
    obtain ⟨name, node⟩ := entry
    have hrest : Sized rest := fun entry hmem => hsizes entry (List.mem_cons_of_mem _ hmem)
    unfold scanEntries
    split
    · rfl
    · split
      · exact ih hrest _ _
      · rcases processEntry_cases calls visit context
          (hsizes (name, node) List.mem_cons_self) with ⟨heq, -, -⟩ | ⟨heq, -⟩ | ⟨heq, -⟩
        · rw [heq]
          rfl
        · rw [heq]
          rfl
        · rw [heq]
          refine (ih hrest _ _).trans ?_
          unfold ScanContext.add
          split
          · rfl
          · split
            · rfl
            · rfl

/-- A scan ends with an error of the files, or with a blob for which there is no memory. -/
theorem scanEntries_error (hsizes : Sized stream) (index : Nat) (context : ScanContext γ) :
    (scanEntries calls (.entriesOnly visit) index stream context).1 = .none ∨
    (scanEntries calls (.entriesOnly visit) index stream context).1 = .io ∨
    (scanEntries calls (.entriesOnly visit) index stream context).1 = .internal ∧
      (entriesOf stream).filterMap blobOf ≠ [] := by
  induction stream generalizing index context with
  | nil =>
    cases hread : calls.readDirectory index with
    | true => exact Or.inl (if_pos hread)
    | false => exact Or.inr (Or.inl (if_neg (ne_true_of_eq_false hread)))
  | cons entry rest ih =>
    obtain ⟨name, node⟩ := entry
    have hrest : Sized rest := fun entry hmem => hsizes entry (List.mem_cons_of_mem _ hmem)
    unfold scanEntries
    by_cases hread : ¬ calls.readDirectory index = true
    · rw [if_pos hread]
      exact Or.inr (Or.inl rfl)
    rw [if_neg hread]
    by_cases hdot : isDotEntry name = true
    · rw [if_pos hdot, entriesOf_dot hdot]
      exact ih hrest _ _
    rw [if_neg hdot, entriesOf_cons hdot]
    rcases processEntry_cases calls visit context
      (hsizes (name, node) List.mem_cons_self) with ⟨heq, -⟩ | ⟨heq, -, hblob⟩ | ⟨heq, -⟩
    · rw [heq]
      exact Or.inr (Or.inl rfl)
    · obtain ⟨blob, hblob⟩ := Option.isSome_iff_exists.mp hblob
      rw [heq, List.filterMap_cons_some hblob]
      exact Or.inr (Or.inr ⟨rfl, List.cons_ne_nil _ _⟩)
    · rw [heq]
      refine (ih hrest (index + 1) _).imp_right (Or.imp_right (And.imp_right fun hblobs => ?_))
      cases hblob : blobOf (name, node) with
      | none => rwa [List.filterMap_cons_none hblob]
      | some blob =>
        rw [List.filterMap_cons_some hblob]
        exact List.cons_ne_nil _ _

/-- With the directory read and the array grown, only a stat ends the scan. -/
theorem scanEntries_stat (hsizes : Sized stream) (index : Nat) (context : ScanContext γ) (hread : ∀ i, calls.readDirectory i = true)
    (happend : ∀ n, calls.appendEntry n = true) :
    (scanEntries calls (.entriesOnly visit) index stream context).1 =
      if ∀ entry ∈ entriesOf stream, isNamed entry.1 = true → calls.statPath entry.1 = true then .none else .io := by
  induction stream generalizing index context with
  | nil => simp [scanEntries, hread, entriesOf]
  | cons entry rest ih =>
    obtain ⟨name, node⟩ := entry
    have hrest : Sized rest := fun entry hmem => hsizes entry (List.mem_cons_of_mem _ hmem)
    rw [scanEntries, if_neg (by simp [hread])]
    by_cases hdot : isDotEntry name = true
    · rw [if_pos hdot, entriesOf_dot hdot]
      exact ih hrest _ _
    · rw [if_neg hdot, entriesOf_cons hdot]
      simp only [List.forall_mem_cons]
      rcases processEntry_cases calls visit context
        (hsizes (name, node) List.mem_cons_self) with ⟨heq, hnamed, hstat⟩ | ⟨-, hfull, -⟩ | ⟨heq, hstat⟩
      · have hnot : ¬ ((isNamed name = true → calls.statPath name = true) ∧
            ∀ entry ∈ entriesOf rest, isNamed entry.1 = true → calls.statPath entry.1 = true) := by
          rintro ⟨hfirst, -⟩
          rw [hfirst hnamed] at hstat
          cases hstat
        rw [heq, if_neg hnot]
        rfl
      · rw [happend] at hfull
        cases hfull
      · rw [heq]
        refine (ih hrest _ _).trans ?_
        congr 1
        exact propext ⟨fun h => ⟨hstat, h⟩, fun h => h.2⟩

end Entries

section Account

variable {γ : Type} {context : ScanContext γ}

theorem add_entries (entries : List (Name × Node)) :
    (entries.foldl ScanContext.add context).entries = context.entries ++ entries.filterMap blobOf := by
  induction entries generalizing context with
  | nil => rw [List.foldl_nil, List.filterMap_nil, List.append_nil]
  | cons entry rest ih =>
    rw [List.foldl_cons, ih, ScanContext.add]
    cases hblob : blobOf entry with
    | some blob => rw [List.filterMap_cons_some hblob, List.append_assoc, List.singleton_append]
    | none =>
      rw [List.filterMap_cons_none hblob]
      dsimp only
      split
      · rfl
      · rfl

theorem add_temporary (entries : List (Name × Node)) :
    (entries.foldl ScanContext.add context).summary.temporaryFileCount =
      context.summary.temporaryFileCount + entries.countP isTemporary := by
  induction entries generalizing context with
  | nil => rfl
  | cons entry rest ih =>
    rw [List.foldl_cons, ih, ScanContext.add]
    cases hblob : blobOf entry with
    | some blob =>
      have hnot : ¬ isTemporary entry = true := fun h => by
        rw [blobOf_temporary h] at hblob
        cases hblob
      rw [List.countP_cons_of_neg hnot]
    | none =>
      by_cases htemporary : isTemporary entry = true
      · rw [List.countP_cons_of_pos htemporary, if_pos htemporary]
        dsimp only
        omega
      · rw [List.countP_cons_of_neg htemporary, if_neg htemporary]

theorem add_invalid (entries : List (Name × Node)) :
    (entries.foldl ScanContext.add context).summary.invalidNameCount =
      context.summary.invalidNameCount + entries.countP isForeign := by
  induction entries generalizing context with
  | nil => rfl
  | cons entry rest ih =>
    rw [List.foldl_cons, ih, ScanContext.add]
    cases hblob : blobOf entry with
    | some blob => rw [List.countP_cons_of_neg (by simp [isForeign, hblob])]
    | none =>
      by_cases htemporary : isTemporary entry = true
      · rw [List.countP_cons_of_neg (by simp [isForeign, htemporary]), if_pos htemporary]
      · rw [List.countP_cons_of_pos (by simp [isForeign, hblob, htemporary]), if_neg htemporary]
        dsimp only
        omega

theorem add_maxId (entries : List (Name × Node)) :
    (entries.foldl ScanContext.add context).summary.maxId =
      (entries.filterMap blobOf).foldl (fun maxId blob => greaterId maxId blob.id) context.summary.maxId := by
  induction entries generalizing context with
  | nil => rfl
  | cons entry rest ih =>
    rw [List.foldl_cons, ih, ScanContext.add]
    cases hblob : blobOf entry with
    | some blob => rw [List.filterMap_cons_some hblob, List.foldl_cons]
    | none =>
      rw [List.filterMap_cons_none hblob]
      dsimp only
      split
      · rfl
      · rfl

theorem greaterId_eq (maxId : Option Nat) (blobId : Nat) :
    greaterId maxId blobId = some (max (maxId.getD 0) blobId) := by
  cases maxId with
  | none => rw [greaterId, Option.getD_none, Nat.zero_max]
  | some maxId =>
    rw [greaterId, Option.getD_some]
    split
    · next h => rw [Nat.max_eq_right (Nat.le_of_lt h)]
    · next h => rw [Nat.max_eq_left (Nat.not_lt.mp h)]

theorem greatest_from (blobs : List BlobEntry) (first : Nat) :
    ∃ greatest, blobs.foldl (fun maxId blob => greaterId maxId blob.id) (some first) = some greatest ∧
      first ≤ greatest ∧ (∀ blob ∈ blobs, blob.id ≤ greatest) ∧
      (greatest = first ∨ ∃ blob ∈ blobs, blob.id = greatest) := by
  induction blobs generalizing first with
  | nil => exact ⟨first, rfl, Nat.le_refl _, fun _ h => absurd h List.not_mem_nil, Or.inl rfl⟩
  | cons blob rest ih =>
    obtain ⟨greatest, hfold, hle, hall, hwhich⟩ := ih (max first blob.id)
    rw [List.foldl_cons, greaterId_eq, Option.getD_some]
    refine ⟨greatest, hfold, by omega, ?_, ?_⟩
    · rw [List.forall_mem_cons]
      exact ⟨by omega, hall⟩
    · rcases hwhich with heq | ⟨other, hmem, hother⟩
      · rcases Nat.le_total first blob.id with hless | hless
        · right
          exact ⟨blob, List.mem_cons_self, by rw [heq, Nat.max_eq_right hless]⟩
        · left
          rw [heq, Nat.max_eq_left hless]
      · right
        exact ⟨other, List.mem_cons_of_mem _ hmem, hother⟩

theorem maxId_spec (blobs : List BlobEntry) :
    (blobs = [] ∧ blobs.foldl (fun maxId blob => greaterId maxId blob.id) none = none) ∨
    ∃ greatest, blobs.foldl (fun maxId blob => greaterId maxId blob.id) none = some greatest ∧
      (∀ blob ∈ blobs, blob.id ≤ greatest) ∧ ∃ blob ∈ blobs, blob.id = greatest := by
  cases blobs with
  | nil =>
    left
    exact ⟨rfl, rfl⟩
  | cons blob rest =>
    right
    obtain ⟨greatest, hfold, hle, hall, hwhich⟩ := greatest_from rest blob.id
    refine ⟨greatest, hfold, ?_, ?_⟩
    · rw [List.forall_mem_cons]
      exact ⟨hle, hall⟩
    · rcases hwhich with heq | ⟨other, hmem, hother⟩
      · exact ⟨blob, List.mem_cons_self, heq.symm⟩
      · exact ⟨other, List.mem_cons_of_mem _ hmem, hother⟩

end Account

section Sorting

theorem sort_eq (entries : List BlobEntry) :
    sortNewestFirst entries = (entries.reverse.insertionSort (fun a b => a.id ≤ b.id)).reverse := by
  rw [sortNewestFirst, ← List.foldr_reverse]
  rfl

theorem sort_perm (entries : List BlobEntry) : (sortNewestFirst entries).Perm entries := by
  rw [sort_eq]
  exact (List.reverse_perm _).trans ((List.perm_insertionSort _ _).trans (List.reverse_perm _))

theorem sort_strict {entries : List BlobEntry} (h : (entries.map BlobEntry.id).Nodup) :
    (sortNewestFirst entries).Pairwise (fun a b => b.id < a.id) := by
  have hnodup : ((sortNewestFirst entries).map BlobEntry.id).Nodup :=
    ((sort_perm entries).map BlobEntry.id).nodup_iff.mpr h
  have hsorted : (sortNewestFirst entries).Pairwise (fun a b => b.id ≤ a.id) := by
    have : IsTrans BlobEntry (fun a b => a.id ≤ b.id) := ⟨fun _ _ _ => Nat.le_trans⟩
    have : Std.Total (fun a b : BlobEntry => a.id ≤ b.id) := ⟨fun a b => Nat.le_total a.id b.id⟩
    rw [sort_eq, List.pairwise_reverse]
    exact List.pairwise_insertionSort _ _
  refine (hsorted.and (List.pairwise_map.mp hnodup)).imp ?_
  rintro a b ⟨hle, hne⟩
  exact Nat.lt_of_le_of_ne hle (fun heq => hne heq.symm)

end Sorting

/-- A blob of the directory: a file that has the name of an identifier. -/
def IsBlob (directory : Directory) (blob : BlobEntry) : Prop :=
  0 < blob.id ∧ blob.id ≤ uint64Max ∧
    ∃ content, directory.lookup (formatFilename blob.id) = some (.file content) ∧ blob.storedBytes = content.length

section Reading

variable {directory : Directory} {name : Name} {node : Node}

theorem mem_listing : (name, node) ∈ listing directory ↔ directory.lookup name = some node := by
  have hentry := AList.mem_lookup_iff (s := directory) (a := name) (b := node)
  rw [Option.mem_def] at hentry
  rw [hentry, listing, List.mem_map]
  constructor
  · rintro ⟨entry, hmem, heq⟩
    cases heq
    exact hmem
  · intro hmem
    exact ⟨⟨name, node⟩, hmem, rfl⟩

theorem nodup_listing (directory : Directory) : ((listing directory).map Prod.fst).Nodup := by
  rw [listing, List.map_map]
  exact directory.nodupKeys

def blobsOf (reading : DirectoryReading) : List BlobEntry := (entriesOf reading.stream).filterMap blobOf

theorem mem_blobsOf {reading : DirectoryReading} {blob : BlobEntry} :
    blob ∈ blobsOf reading ↔ IsBlob reading.directory blob := by
  rw [blobsOf, List.mem_filterMap]
  constructor
  · rintro ⟨⟨name, node⟩, hmem, hblob⟩
    obtain ⟨hname, content, hnode, hsize⟩ := blobOf_eq_some.mp hblob
    obtain ⟨heq, hpositive, hmax⟩ := parseFilename_eq_some hname
    have hlookup := mem_listing.mp (reading.complete.mem_iff.mp hmem)
    rw [show name = formatFilename blob.id from heq, show node = .file content from hnode] at hlookup
    exact ⟨hpositive, hmax, content, hlookup, hsize⟩
  · rintro ⟨hpositive, hmax, content, hlookup, hsize⟩
    exact ⟨(formatFilename blob.id, .file content), reading.complete.mem_iff.mpr (mem_listing.mpr hlookup),
      blobOf_eq_some.mpr ⟨parseFilename_format hpositive hmax, content, rfl, hsize⟩⟩

theorem nodup_blobsOf (reading : DirectoryReading) : ((blobsOf reading).map BlobEntry.id).Nodup := by
  have hnames : ((entriesOf reading.stream).map Prod.fst).Nodup :=
    (reading.complete.map Prod.fst).nodup_iff.mpr (nodup_listing reading.directory)
  refine List.pairwise_map.mpr (List.pairwise_filterMap.mpr ((List.pairwise_map.mp hnames).imp ?_))
  rintro first second hne blob hblob other hother heq
  apply hne
  rw [(parseFilename_eq_some (blobOf_eq_some.mp hblob).1).1, (parseFilename_eq_some (blobOf_eq_some.mp hother).1).1, heq]

theorem mem_entriesOf {reading : DirectoryReading} :
    (name, node) ∈ entriesOf reading.stream ↔ reading.directory.lookup name = some node :=
  reading.complete.mem_iff.trans mem_listing

end Reading

section Outcome

variable {γ : Type} (calls : ScanCalls) (visit : BlobEntry → γ → AppError × γ)

def greatestId (blobs : List BlobEntry) : Option Nat := blobs.foldl (fun maxId blob => greaterId maxId blob.id) none

def summaryOf (reading : DirectoryReading) (nextId : Nat) : ScanSummary :=
  ⟨(blobsOf reading).length, (entriesOf reading.stream).countP isForeign, (entriesOf reading.stream).countP isTemporary,
    greatestId (blobsOf reading), nextId⟩

theorem deriveNextId_error {persistedNextId : Nat} {maxId : Option Nat} {error : AppError}
    (h : deriveNextId persistedNextId maxId = .error error) :
    (error = .invalidArgument ∧ maxId = some 0) ∨ (error = .storageFull ∧ maxId = some uint64Max) := by
  unfold deriveNextId at h
  cases maxId with
  | none => cases h
  | some maxId =>
    dsimp only at h
    split_ifs at h with hzero hmax
    · cases h
      exact Or.inl ⟨rfl, by rw [hzero]⟩
    · cases h
      exact Or.inr ⟨rfl, by rw [hmax]⟩

theorem deriveNextId_ok {persistedNextId nextId : Nat} {maxId : Option Nat}
    (h : deriveNextId persistedNextId maxId = .ok nextId) :
    persistedNextId ≤ nextId ∧ 0 < nextId ∧ ∀ greatest, maxId = some greatest → greatest < nextId := by
  have hpersisted : persistedNextId ≤ (if persistedNextId = 0 then 1 else persistedNextId) ∧
      0 < (if persistedNextId = 0 then 1 else persistedNextId) := by
    split
    · omega
    · omega
  unfold deriveNextId at h
  cases maxId with
  | none =>
    cases h
    exact ⟨hpersisted.1, hpersisted.2, nofun⟩
  | some maxId =>
    dsimp only at h
    split_ifs at h
    · cases h
      refine ⟨by omega, by omega, ?_⟩
      rintro _ ⟨⟩
      omega
    · cases h
      refine ⟨by omega, by omega, ?_⟩
      rintro _ ⟨⟩
      omega

def StatsSucceed (calls : ScanCalls) (reading : DirectoryReading) : Prop :=
  ∀ entry ∈ entriesOf reading.stream, isNamed entry.1 = true → calls.statPath entry.1 = true

theorem greatestId_ne_zero (reading : DirectoryReading) : greatestId (blobsOf reading) ≠ some 0 := by
  intro h
  rcases maxId_spec (blobsOf reading) with ⟨-, hnone⟩ | ⟨greatest, hsome, -, blob, hmem, hid⟩
  · cases h.symm.trans hnone
  · cases h.symm.trans hsome
    exact Nat.ne_of_gt (mem_blobsOf.mp hmem).1 hid

/-- The errors of a scan before its first visit. -/
def Refuses (reading : DirectoryReading) (persistedNextId : Nat) (error : AppError) : Prop :=
  error = .io ∨ error = .internal ∧ blobsOf reading ≠ [] ∨
    deriveNextId persistedNextId (greatestId (blobsOf reading)) = .error error

/-- A scan fails before its first visit, or it visits all blobs, newest first. -/
theorem scanWithOps_cases (reading : DirectoryReading) (persistedNextId : Nat) (observed : γ) :
    (∃ error summary, error ≠ .none ∧
      scanWithOps calls (.entriesOnly visit) reading.stream persistedNextId observed = (error, summary, observed) ∧
      (calls.Working → ¬ StatsSucceed calls reading ∨ greatestId (blobsOf reading) = some uint64Max) ∧
      Refuses reading persistedNextId error) ∨
    ∃ nextId, deriveNextId persistedNextId (greatestId (blobsOf reading)) = .ok nextId ∧ StatsSucceed calls reading ∧
      scanWithOps calls (.entriesOnly visit) reading.stream persistedNextId observed =
        ((notifyEntries (.entriesOnly visit) (sortNewestFirst (blobsOf reading)) observed).1, summaryOf reading nextId,
          (notifyEntries (.entriesOnly visit) (sortNewestFirst (blobsOf reading)) observed).2) := by
  unfold scanWithOps
  by_cases hopen : ¬ calls.openDirectory = true
  · left
    rw [if_pos hopen]
    exact ⟨.io, .zero, nofun, rfl, fun hworking => absurd hworking.openDirectory hopen, Or.inl rfl⟩
  rw [if_neg hopen]
  have hsame := scanEntries_observed visit calls reading.sizes 0 ⟨[], .zero, observed⟩
  have hdone := scanEntries_success visit calls reading.sizes 0 ⟨[], .zero, observed⟩
  have hstat := fun hworking : calls.Working => scanEntries_stat visit calls reading.sizes 0
    ⟨[], .zero, observed⟩ hworking.readDirectory hworking.appendEntry
  have herror := scanEntries_error visit calls reading.sizes 0 ⟨[], .zero, observed⟩
  generalize scanEntries calls (.entriesOnly visit) 0 reading.stream ⟨[], .zero, observed⟩ = outcome
    at hsame hdone hstat herror
  obtain ⟨scanned, context⟩ := outcome
  dsimp only at hsame hdone hstat herror ⊢
  by_cases hresult : (if ¬ calls.closeDirectory = true ∧ scanned = .none then AppError.io else scanned) ≠ .none
  · left
    rw [if_pos hresult, hsame]
    refine ⟨_, _, hresult, rfl, ?_, ?_⟩
    · intro hworking
      left
      intro hstats
      rw [if_neg (fun h => h.1 hworking.closeDirectory)] at hresult
      exact hresult ((hstat hworking).trans (if_pos hstats))
    · by_cases hclose : ¬ calls.closeDirectory = true ∧ scanned = .none
      · rw [if_pos hclose]
        exact Or.inl rfl
      · rw [if_neg hclose] at hresult ⊢
        rcases herror with hnone | hio | hfull
        · exact absurd hnone hresult
        · exact Or.inl hio
        · exact Or.inr (Or.inl hfull)
  rw [if_neg hresult]
  have hscanned : scanned = .none := by
    by_contra hfailed
    rw [if_neg (fun h => hfailed h.2)] at hresult
    exact hresult hfailed
  obtain ⟨rfl, hstats⟩ := hdone hscanned
  have hentries : ((entriesOf reading.stream).foldl ScanContext.add ⟨[], .zero, observed⟩).entries = blobsOf reading := by
    rw [add_entries]
    rfl
  have hmaxId : ((entriesOf reading.stream).foldl ScanContext.add ⟨[], .zero, observed⟩).summary.maxId =
      greatestId (blobsOf reading) := add_maxId _
  rw [hmaxId, hsame, hentries]
  cases hnext : deriveNextId persistedNextId (greatestId (blobsOf reading)) with
  | error error =>
    left
    rcases deriveNextId_error hnext with ⟨-, hzero⟩ | ⟨rfl, hmax⟩
    · exact absurd hzero (greatestId_ne_zero reading)
    · exact ⟨.storageFull, _, nofun, rfl, fun _ => Or.inr hmax, Or.inr (Or.inr hnext)⟩
  | ok nextId =>
    right
    refine ⟨nextId, rfl, hstats, ?_⟩
    simp only [add_invalid, add_temporary, ScanSummary.zero, Nat.zero_add]
    rw [summaryOf, ← hmaxId]

theorem notifyEntries_collect (entries seen : List BlobEntry) :
    notifyEntries (.entriesOnly fun entry seen => (.none, seen ++ [entry])) entries seen = (.none, seen ++ entries) := by
  induction entries generalizing seen with
  | nil => rw [notifyEntries, List.append_nil]
  | cons entry rest ih =>
    rw [notifyEntries]
    refine (ih (seen ++ [entry])).trans ?_
    rw [List.append_assoc, List.singleton_append]

def scanReport (reading : DirectoryReading) (persistedNextId : Nat) :
    AppError × ScanSummary × List BlobEntry :=
  scanWithOps calls (.entriesOnly fun entry seen => (.none, seen ++ [entry])) reading.stream persistedNextId []

/-- A report of all blobs and nothing else, newest first, with the counts of the three
kinds of entries and an identifier beyond all others. -/
structure Reported (directory : Directory) (summary : ScanSummary) (entries : List BlobEntry) : Prop where
  complete : ∀ entry, entry ∈ entries ↔ IsBlob directory entry
  newestFirst : entries.Pairwise (fun a b => b.id < a.id)
  validCount : summary.validCount = entries.length
  temporaryFileCount : summary.temporaryFileCount = (listing directory).countP isTemporary
  partition : summary.validCount + summary.invalidNameCount + summary.temporaryFileCount = (listing directory).length
  nextId : ∀ entry, IsBlob directory entry → entry.id < summary.nextId

theorem length_partition (entries : List (Name × Node)) :
    (entries.filterMap blobOf).length + entries.countP isForeign + entries.countP isTemporary = entries.length := by
  induction entries with
  | nil => rfl
  | cons entry rest ih =>
    rw [List.length_cons]
    cases hblob : blobOf entry with
    | some blob =>
      have htemporary : ¬ isTemporary entry = true := fun h => by
        rw [blobOf_temporary h] at hblob
        cases hblob
      have hforeign : ¬ isForeign entry = true := by simp [isForeign, hblob]
      rw [List.filterMap_cons_some hblob, List.length_cons, List.countP_cons_of_neg hforeign,
        List.countP_cons_of_neg htemporary]
      omega
    | none =>
      rw [List.filterMap_cons_none hblob]
      by_cases htemporary : isTemporary entry = true
      · have hforeign : ¬ isForeign entry = true := by simp [isForeign, htemporary]
        rw [List.countP_cons_of_pos htemporary, List.countP_cons_of_neg hforeign]
        omega
      · have hforeign : isForeign entry = true := by simp [isForeign, hblob, htemporary]
        rw [List.countP_cons_of_neg htemporary, List.countP_cons_of_pos hforeign]
        omega

/-- What a scan reports is right, and it reports nothing unless it succeeds. -/
theorem scanReport_spec (reading : DirectoryReading) (persistedNextId : Nat) :
    ((scanReport calls reading persistedNextId).1 = .none ∧
      Reported reading.directory (scanReport calls reading persistedNextId).2.1
        (scanReport calls reading persistedNextId).2.2) ∨
    ((scanReport calls reading persistedNextId).1 ≠ .none ∧ (scanReport calls reading persistedNextId).2.2 = [] ∧
      (calls.Working → ¬ StatsSucceed calls reading ∨ greatestId (blobsOf reading) = some uint64Max)) := by
  rcases scanWithOps_cases calls (fun entry seen => (.none, seen ++ [entry])) reading
    persistedNextId [] with ⟨error, summary, herror, heq, hwhy, -⟩ | ⟨nextId, hnext, -, heq⟩
  · right
    rw [scanReport, heq]
    exact ⟨herror, rfl, hwhy⟩
  · left
    rw [notifyEntries_collect, List.nil_append] at heq
    rw [scanReport, heq]
    have hperm := sort_perm (blobsOf reading)
    have hmem : ∀ entry, entry ∈ sortNewestFirst (blobsOf reading) ↔ IsBlob reading.directory entry := by
      intro entry
      rw [hperm.mem_iff, mem_blobsOf]
    refine ⟨rfl, ⟨hmem, sort_strict (nodup_blobsOf reading), hperm.length_eq.symm, ?_, ?_, ?_⟩⟩
    · exact reading.complete.countP_eq isTemporary
    · exact (length_partition (entriesOf reading.stream)).trans reading.complete.length_eq
    · intro entry hentry
      obtain ⟨-, -, hgreater⟩ := deriveNextId_ok hnext
      rcases maxId_spec (blobsOf reading) with ⟨hempty, -⟩ | ⟨greatest, hsome, hall, -⟩
      · have hin := mem_blobsOf.mpr hentry
        rw [hempty] at hin
        exact absurd hin List.not_mem_nil
      · exact Nat.lt_of_le_of_lt (hall entry (mem_blobsOf.mpr hentry)) (hgreater greatest hsome)

end Outcome

end MacroKeyboard.Blobs.ScanReport
