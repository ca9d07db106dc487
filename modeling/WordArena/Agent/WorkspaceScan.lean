import Mathlib.Tactic.MkIffOfInductiveProp
import WordArena.Agent.Authority
import WordArena.Library.Worklist

/-! The scan of a seat workspace for forbidden authority before a process is started in it. The
tree below the root does not change meanwhile; any system call on it may fail. -/
namespace WordArena.Agent

open Fallible

section Tree

/-- The system calls for an entry that fail. Reading is listing for a directory. -/
structure Faults where
  entry : Bool
  fileType : Bool
  metadata : Bool
  read : Bool
deriving DecidableEq

structure EntryName where
  fileName : List UInt8
  faults : Faults
deriving DecidableEq

inductive Node where
  | symlink
  | file (contents : List UInt8)
  | directory (entries : List (EntryName × Node))
  | other

abbrev Entry := EntryName × Node

structure Directory where
  entries : List Entry
  listed : Bool

def Entry.directory : Entry → Option Directory
  | (name, .directory entries) => some ⟨entries, !name.faults.read⟩
  | _ => none

/-- The directories in a directory, the last one first. -/
def Directory.below (directory : Directory) : List Directory :=
  (directory.entries.filterMap Entry.directory).reverse

mutual

/-- The number of directories in a tree. -/
def Node.directories : Node → Nat
  | .directory entries => entryDirectories entries + 1
  | .symlink => 0
  | .file _ => 0
  | .other => 0

def entryDirectories : List (EntryName × Node) → Nat
  | [] => 0
  | (_, node) :: entries => node.directories + entryDirectories entries

end

def Directory.size (directory : Directory) : Nat := entryDirectories directory.entries + 1

theorem sum_size_below (entries : List Entry) :
    ((entries.filterMap Entry.directory).map Directory.size).sum = entryDirectories entries := by
  induction entries with
  | nil => rfl
  | cons entry entries ih =>
      obtain ⟨name, node⟩ := entry
      cases node with
      | directory inner =>
          have hDirectory : Entry.directory (name, .directory inner) =
              some ⟨inner, !name.faults.read⟩ := rfl
          rw [List.filterMap_cons_some hDirectory, List.map_cons, List.sum_cons, ih]
          rfl
      | symlink => rw [List.filterMap_cons_none rfl, ih, entryDirectories, Node.directories, zero_add]
      | file contents =>
          rw [List.filterMap_cons_none rfl, ih, entryDirectories, Node.directories, zero_add]
      | other => rw [List.filterMap_cons_none rfl, ih, entryDirectories, Node.directories, zero_add]

theorem below_shrinks : Worklist.Shrinks Directory.size Directory.below := by
  intro directory
  rw [Directory.below, List.map_reverse, List.sum_reverse, sum_size_below]
  exact Nat.lt_succ_self _

/-- Everything below a directory, where links are not followed. -/
def Directory.entriesBelow (root : Directory) : List Entry :=
  (Worklist.descendants below_shrinks root).flatMap Directory.entries

end Tree

section Scan

/-- The counters of a scan; they are `u64` in the source. -/
structure Scan where
  scannedBytes : Nat
  entryCount : Nat

/-- What ends a scan before all is scanned: a failure or what was found. -/
abbrev ScanEnd := Except WorkspaceError ForbiddenAuthorityKind

variable {Digest : Type} [DecidableEq Digest]

/-- One entry. What is behind the stack and the counters is not looked at. -/
def scanEntry (sha256 : List UInt8 → Digest) (policy : ForbiddenAuthorityPolicy Digest)
    (maximumBytes : UInt64) (state : List Directory × Scan) (entry : Entry) :
    Except ScanEnd (List Directory × Scan) := do
  let (pending, scan) := state
  let (name, node) := entry
  reject name.faults.entry (.error .filesystem)
  let entryCount := saturatingAdd scan.entryCount 1
  reject (100000 < entryCount) (.error .corrupt)
  reject name.faults.fileType (.error .filesystem)
  match node with
  | .symlink => return (pending, { scan with entryCount })
  | node =>
      match (Bytes.decode name.fileName).bind forbiddenAuthorityMarker with
      | some authority => .error (.ok authority)
      | none =>
          match node with
          | .directory entries =>
              return (⟨entries, !name.faults.read⟩ :: pending, { scan with entryCount })
          | .file contents =>
              reject name.faults.metadata (.error .filesystem)
              let scannedBytes := saturatingAdd scan.scannedBytes contents.length
              reject (maximumBytes.toNat < scannedBytes) (.error .corrupt)
              reject name.faults.read (.error .filesystem)
              match policy.find sha256 contents with
              | some authority => .error (.ok authority)
              | none => return (pending, ⟨scannedBytes, entryCount⟩)
          | _ => .error (.error .corrupt)

def scanDirectory (sha256 : List UInt8 → Digest) (policy : ForbiddenAuthorityPolicy Digest)
    (maximumBytes : UInt64) (directory : Directory) (scan : Scan) :
    Except ScanEnd (List Directory × Scan) := do
  reject (directory.listed = false) (.error .filesystem)
  directory.entries.foldlM (scanEntry sha256 policy maximumBytes) ([], scan)

/-- The counters behind an entry. -/
def Scan.after (scan : Scan) : Entry → Scan
  | (_, .file contents) =>
      ⟨saturatingAdd scan.scannedBytes contents.length, saturatingAdd scan.entryCount 1⟩
  | _ => { scan with entryCount := saturatingAdd scan.entryCount 1 }

def Scan.Within (maximumBytes : UInt64) (scan : Scan) : Prop :=
  scan.entryCount ≤ 100000 ∧ scan.scannedBytes ≤ maximumBytes.toNat

/-- What lets the scan go on behind an entry, limits apart. -/
@[mk_iff] structure Entry.Passes (sha256 : List UInt8 → Digest) (policy : ForbiddenAuthorityPolicy Digest)
    (entry : Entry) : Prop where
  readable : entry.1.faults.entry = false ∧ entry.1.faults.fileType = false
  name : entry.2 ≠ .symlink → (Bytes.decode entry.1.fileName).bind forbiddenAuthorityMarker = none
  kind : entry.2 ≠ .other
  file : ∀ contents, entry.2 = .file contents →
    entry.1.faults.metadata = false ∧ entry.1.faults.read = false ∧
      policy.find sha256 contents = none

variable {sha256 : List UInt8 → Digest} {policy : ForbiddenAuthorityPolicy Digest}
  {maximumBytes : UInt64} {scan : Scan} {entry : Entry}
  {next : List Directory × Scan}

/-- The stack and the counters behind an entry. -/
def passed (state : List Directory × Scan) (entry : Entry) : List Directory × Scan :=
  (entry.directory.toList ++ state.1, state.2.after entry)

theorem scanEntry_iff {state : List Directory × Scan} :
    scanEntry sha256 policy maximumBytes state entry = .ok next ↔
      (entry.Passes sha256 policy ∧ (state.2.after entry).entryCount ≤ 100000 ∧
        ∀ contents, entry.2 = .file contents →
          (state.2.after entry).scannedBytes ≤ maximumBytes.toNat) ∧ next = passed state entry := by
  obtain ⟨name, node⟩ := entry
  rw [scanEntry]
  simp only [bind_eq_ok, reject_eq_ok, exists_and_left, Entry.passes_iff]
  cases node with
  | symlink =>
      simp [passed, Entry.directory, Scan.after]
      grind
  | other => cases (Bytes.decode name.fileName).bind forbiddenAuthorityMarker <;> simp
  | directory entries =>
      cases (Bytes.decode name.fileName).bind forbiddenAuthorityMarker with
      | some authority => simp
      | none =>
          simp [passed, Entry.directory, Scan.after]
          grind
  | file contents =>
      cases (Bytes.decode name.fileName).bind forbiddenAuthorityMarker with
      | some authority => simp
      | none =>
          cases hFind : policy.find sha256 contents with
          | some authority => simp [bind_eq_ok, hFind]
          | none =>
              simp [-bind_pure_comp, bind_eq_ok, hFind, passed, Entry.directory, Scan.after]
              grind

theorem scanEntry_eq_ok {state : List Directory × Scan} (hWithin : state.2.Within maximumBytes) :
    scanEntry sha256 policy maximumBytes state entry = .ok next ↔
      entry.Passes sha256 policy ∧ (passed state entry).2.Within maximumBytes ∧
        next = passed state entry := by
  have hBytes : (state.2.after entry).scannedBytes ≤ maximumBytes.toNat ↔
      ∀ contents, entry.2 = .file contents →
        (state.2.after entry).scannedBytes ≤ maximumBytes.toNat := by
    have hScanned := hWithin.2
    obtain ⟨name, node⟩ := entry
    cases node <;> simp [Scan.after, hScanned]
  rw [scanEntry_iff, ← hBytes, passed, Scan.Within]
  tauto

theorem foldl_passed (entries : List Entry) (state : List Directory × Scan) :
    entries.foldl passed state =
      ((entries.filterMap Entry.directory).reverse ++ state.1, entries.foldl Scan.after state.2) := by
  induction entries generalizing state with
  | nil => rfl
  | cons entry entries ih =>
      rw [List.foldl_cons, ih, List.foldl_cons]
      cases hDirectory : entry.directory with
      | none => simp [passed, hDirectory]
      | some directory => simp [passed, hDirectory]

theorem scanDirectory_pushes :
    Worklist.Pushes Directory.below (scanDirectory sha256 policy maximumBytes) := by
  intro directory scan next scan' h
  obtain ⟨_, -, hEntries⟩ := bind_eq_ok.mp h
  have hValue := foldlM_value (fun _ _ _ hEntry => (scanEntry_iff.mp hEntry).2) hEntries
  rw [foldl_passed, List.append_nil] at hValue
  exact congrArg Prod.fst hValue

/-- The directories are scanned one after another, the one found last first. -/
def findForbiddenWorkspaceAuthority (sha256 : List UInt8 → Digest) (root : Directory)
    (maximumBytes : UInt64) (policy : ForbiddenAuthorityPolicy Digest) :
    Except WorkspaceError (Option ForbiddenAuthorityKind) :=
  match Worklist.loop (scanDirectory sha256 policy maximumBytes) below_shrinks
      scanDirectory_pushes [root] ⟨0, 0⟩ with
  | .error (.error e) => .error e
  | .error (.ok authority) => .ok (some authority)
  | .ok _ => .ok none

/-- The bytes that an entry adds to the total. -/
def Entry.bytes : Entry → Nat
  | (_, .file contents) => contents.length
  | _ => 0

/-- Counters that a scan can have. -/
def Scan.Possible (scan : Scan) : Prop :=
  scan.scannedBytes ≤ 2 ^ 64 - 1 ∧ scan.entryCount ≤ 2 ^ 64 - 1

theorem possible_after (scan : Scan) (entry : Entry) (h : scan.Possible) :
    (scan.after entry).Possible := by
  obtain ⟨name, node⟩ := entry
  obtain ⟨hBytes, hCount⟩ := h
  cases node <;> simp only [Scan.after, Scan.Possible, saturatingAdd] <;> omega

theorem within_of_after (scan : Scan) (entry : Entry) (h : scan.Possible)
    (hWithin : (scan.after entry).Within maximumBytes) : scan.Within maximumBytes := by
  obtain ⟨name, node⟩ := entry
  obtain ⟨hBytes, hCount⟩ := h
  have hMaximum := maximumBytes.toNat_lt
  cases node <;> simp only [Scan.after, Scan.Within, saturatingAdd] at hWithin ⊢ <;> omega

theorem foldl_after (entries : List Entry) (h : scan.Possible) :
    entries.foldl Scan.after scan = ⟨saturatingAdd scan.scannedBytes (entries.map Entry.bytes).sum,
      saturatingAdd scan.entryCount entries.length⟩ := by
  induction entries generalizing scan with
  | nil =>
      obtain ⟨hBytes, hCount⟩ := h
      simp only [List.foldl_nil, List.map_nil, List.sum_nil, List.length_nil, saturatingAdd,
        Nat.add_zero, Nat.min_eq_left hBytes, Nat.min_eq_left hCount]
  | cons entry entries ih =>
      rw [List.foldl_cons, ih (possible_after scan entry h)]
      obtain ⟨name, node⟩ := entry
      obtain ⟨hBytes, hCount⟩ := h
      cases node <;> simp only [Scan.after, saturatingAdd, List.map_cons, List.sum_cons, Entry.bytes,
        List.length_cons, Scan.mk.injEq] <;> omega

theorem possible_foldl (entries : List Entry) (h : scan.Possible) :
    (entries.foldl Scan.after scan).Possible := by
  rw [foldl_after entries h, Scan.Possible, saturatingAdd, saturatingAdd]
  exact ⟨Nat.min_le_right _ _, Nat.min_le_right _ _⟩

theorem possible_of_within (h : scan.Within maximumBytes) : scan.Possible := by
  obtain ⟨hCount, hBytes⟩ := h
  have hMaximum := maximumBytes.toNat_lt
  constructor <;> omega

/-- A directory whose scan lets the next one be scanned, limits apart. -/
def Directory.Passes (sha256 : List UInt8 → Digest) (policy : ForbiddenAuthorityPolicy Digest)
    (directory : Directory) : Prop :=
  directory.listed = true ∧ ∀ entry ∈ directory.entries, entry.Passes sha256 policy

theorem scanDirectory_eq_ok {directory : Directory} (hWithin : scan.Within maximumBytes) :
    scanDirectory sha256 policy maximumBytes directory scan = .ok next ↔
      directory.Passes sha256 policy ∧
        (directory.entries.foldl Scan.after scan).Within maximumBytes ∧
        next = (directory.below, directory.entries.foldl Scan.after scan) := by
  have hEntries : directory.entries.foldlM (scanEntry sha256 policy maximumBytes) ([], scan) =
      .ok next ↔ _ :=
    Worklist.foldlM_within (Entry.Passes sha256 policy) (fun state => state.2.Within maximumBytes)
      (fun state => state.2.Possible) (fun _ _ _ hState => scanEntry_eq_ok hState)
      (fun state => possible_after state.2) (fun state => within_of_after state.2)
      (possible_of_within hWithin) hWithin
  rw [foldl_passed, List.append_nil] at hEntries
  rw [scanDirectory, bind_eq_ok]
  simp only [reject_eq_ok, Bool.not_eq_false, exists_const, hEntries, Directory.Passes,
    Directory.below, and_assoc]

/-- The limits of a scan are respected. -/
def Directory.Fits (root : Directory) (maximumBytes : UInt64) : Prop :=
  root.entriesBelow.length ≤ 100000 ∧
    min (root.entriesBelow.map Entry.bytes).sum (2 ^ 64 - 1) ≤ maximumBytes.toNat

theorem scanDirectories_eq_ok {directories : List Directory} {last : Scan}
    (hWithin : scan.Within maximumBytes) :
    directories.foldlM (fun scan directory =>
        (scanDirectory sha256 policy maximumBytes directory scan).map Prod.snd) scan = .ok last ↔
      (∀ directory ∈ directories, directory.Passes sha256 policy) ∧
        ((directories.flatMap Directory.entries).foldl Scan.after scan).Within maximumBytes ∧
        last = (directories.flatMap Directory.entries).foldl Scan.after scan := by
  rw [List.foldl_flatMap]
  apply Worklist.foldlM_within (Directory.Passes sha256 policy) (Scan.Within maximumBytes)
    Scan.Possible _ _ _ (possible_of_within hWithin) hWithin
  · intro scan directory next hNow
    rw [Worklist.map_snd_eq_ok]
    simp only [scanDirectory_eq_ok hNow, Prod.mk.injEq]
    constructor
    · intro ⟨_, hPasses, hEnd, _, hNext⟩
      exact ⟨hPasses, hEnd, hNext⟩
    · intro ⟨hPasses, hEnd, hNext⟩
      exact ⟨_, hPasses, hEnd, rfl, hNext⟩
  · exact fun _ directory => possible_foldl directory.entries
  · intro scan directory hPossible
    exact Worklist.within_of_foldl (Scan.Within maximumBytes) Scan.Possible possible_after
      within_of_after hPossible

theorem find_eq_ok_none {root : Directory} :
    findForbiddenWorkspaceAuthority sha256 root maximumBytes policy = .ok none ↔
      (∀ directory ∈ Worklist.descendants below_shrinks root, directory.Passes sha256 policy) ∧
        root.Fits maximumBytes := by
  have hZero : (Scan.mk 0 0).Within maximumBytes := ⟨Nat.zero_le _, Nat.zero_le _⟩
  have hPushes : Worklist.Pushes Directory.below (scanDirectory sha256 policy maximumBytes) :=
    scanDirectory_pushes
  have hLoop := Worklist.loop_eq_foldlM below_shrinks hPushes [root] ⟨0, 0⟩
  have hFits : (root.entriesBelow.foldl Scan.after ⟨0, 0⟩).Within maximumBytes ↔
      root.Fits maximumBytes := by
    rw [foldl_after root.entriesBelow (possible_of_within hZero), Scan.Within, Directory.Fits,
      saturatingAdd, saturatingAdd]
    dsimp only
    omega
  have hScan : (∃ last, Worklist.loop _ below_shrinks hPushes [root] ⟨0, 0⟩ = .ok last) ↔
      (∀ directory ∈ Worklist.descendants below_shrinks root, directory.Passes sha256 policy) ∧
        root.Fits maximumBytes := by
    rw [hLoop, List.flatMap_singleton]
    simp only [scanDirectories_eq_ok hZero, ← hFits]
    simp [Directory.entriesBelow]
  rw [← hScan, findForbiddenWorkspaceAuthority]
  split
  · next hEnd => simp [hEnd]
  · next hEnd => simp [hEnd]
  · next hEnd => simp [hEnd]

end Scan

section Adapter

inductive AuthorityBoundarySurface where
  | processArgument
  | processEnvironment
  | workspaceFile
deriving DecidableEq, Repr

inductive AuthorityBoundaryOutcome where
  | deniedBeforeSpawn
deriving DecidableEq, Repr

structure AuthorityBoundaryAuditEvent where
  schemaVersion : UInt32
  runId : String
  seatId : String
  authority : ForbiddenAuthorityKind
  surface : AuthorityBoundarySurface
  occurredAtUnixMs : Int64
  outcome : AuthorityBoundaryOutcome
deriving DecidableEq

structure IsolatedSeatProcessAdapter (Digest : Type) where
  root : Directory
  environment : List (String × String)
  policy : ForbiddenAuthorityPolicy Digest
  runId : String
  seatId : String
  workspaceScanLimit : UInt64

variable {Digest : Type} [DecidableEq Digest]

def IsolatedSeatProcessAdapter.recordDenial (adapter : IsolatedSeatProcessAdapter Digest)
    (now : Int64) (authority : ForbiddenAuthorityKind) (surface : AuthorityBoundarySurface) :
    AuthorityBoundaryAuditEvent where
  schemaVersion := 1
  runId := adapter.runId
  seatId := adapter.seatId
  authority := authority
  surface := surface
  occurredAtUnixMs := now
  outcome := .deniedBeforeSpawn

/-- Whether a process may be started, and the denial that is recorded. -/
def IsolatedSeatProcessAdapter.authorityIsClean (sha256 : List UInt8 → Digest)
    (adapter : IsolatedSeatProcessAdapter Digest) (now : Int64) (spec : ProcessSpec) :
    Bool × Option AuthorityBoundaryAuditEvent :=
  let argumentAuthority := (spec.executable :: spec.arguments).findSome? fun value =>
    (adapter.policy.find sha256 (Bytes.utf8 value)).or (forbiddenAuthorityMarker value)
  match argumentAuthority with
  | some authority => (false, some (adapter.recordDenial now authority .processArgument))
  | none =>
      let environmentAuthority := adapter.environment.findSome? fun (key, value) =>
        (adapter.policy.find sha256 (Bytes.utf8 value)).or (forbiddenAuthorityMarker key)
      match environmentAuthority with
      | some authority => (false, some (adapter.recordDenial now authority .processEnvironment))
      | none =>
          match findForbiddenWorkspaceAuthority sha256 adapter.root adapter.workspaceScanLimit
              adapter.policy with
          | .ok (some authority) => (false, some (adapter.recordDenial now authority .workspaceFile))
          | .ok none => (true, none)
          | .error _ => (false, none)

/-- Nothing forbidden is given to a process or found below the root, as far as names are looked
at. Texts are their bytes. -/
structure Unforbidden (looked : List UInt8 → Prop)
    (registered : List (ForbiddenAuthorityKind × String))
    (adapter : IsolatedSeatProcessAdapter Digest) (spec : ProcessSpec) : Prop where
  arguments : ∀ value ∈ spec.executable :: spec.arguments,
    (∀ r ∈ registered, ¬ Bytes.utf8 r.2 <:+: Bytes.utf8 value) ∧ ¬ Marked (Bytes.utf8 value)
  environment : ∀ setting ∈ adapter.environment,
    (∀ r ∈ registered, ¬ Bytes.utf8 r.2 <:+: Bytes.utf8 setting.2) ∧
      ¬ Marked (Bytes.utf8 setting.1)
  contents : ∀ entry ∈ adapter.root.entriesBelow, ∀ contents, entry.2 = .file contents →
    ∀ r ∈ registered, ¬ Bytes.utf8 r.2 <:+: contents
  names : ∀ entry ∈ adapter.root.entriesBelow, entry.2 ≠ .symlink → looked entry.1.fileName →
    ¬ Marked entry.1.fileName
  kinds : ∀ entry ∈ adapter.root.entriesBelow, entry.2 ≠ .other

/-- All system calls of a scan succeed. -/
structure Readable (root : Directory) : Prop where
  directories : ∀ directory ∈ Worklist.descendants below_shrinks root, directory.listed = true
  entries : ∀ entry ∈ root.entriesBelow,
    entry.1.faults.entry = false ∧ entry.1.faults.fileType = false
  files : ∀ entry ∈ root.entriesBelow, ∀ contents, entry.2 = .file contents →
    entry.1.faults.metadata = false ∧ entry.1.faults.read = false

/-- The check stops whatever is forbidden and nothing else that can be scanned. -/
structure StopsForbidden (sha256 : List UInt8 → Digest)
    (registered : List (ForbiddenAuthorityKind × String))
    (adapter : IsolatedSeatProcessAdapter Digest) (spec : ProcessSpec) (now : Int64) : Prop where
  clean : (adapter.authorityIsClean sha256 now spec).1 = true →
    Unforbidden (fun _ => True) registered adapter spec
  starts : Unforbidden (fun _ => True) registered adapter spec →
    adapter.root.Fits adapter.workspaceScanLimit → Readable adapter.root →
    (adapter.authorityIsClean sha256 now spec).1 = true

/-- A name that is the encoding of a text. -/
def IsText (name : List UInt8) : Prop := Bytes.decode name ≠ none

variable {sha256 : List UInt8 → Digest} {adapter : IsolatedSeatProcessAdapter Digest}
  {registered : List (ForbiddenAuthorityKind × String)} {spec : ProcessSpec} {now : Int64}

theorem name_passes_iff {name : List UInt8} :
    (Bytes.decode name).bind forbiddenAuthorityMarker = none ↔ (IsText name → ¬ Marked name) := by
  cases hName : Bytes.decode name with
  | none => simp [IsText, hName]
  | some text =>
      have hBytes := Bytes.decode_eq_some.mp hName
      rw [Option.bind_some, forbiddenAuthorityMarker_eq_none, hBytes]
      simp [IsText, hName]

/-- A process may be started when each of the three searches finds nothing. -/
theorem authorityIsClean_searches : (adapter.authorityIsClean sha256 now spec).1 = true ↔
    ((spec.executable :: spec.arguments).findSome? fun value =>
      (adapter.policy.find sha256 (Bytes.utf8 value)).or (forbiddenAuthorityMarker value)) = none ∧
    (adapter.environment.findSome? fun (key, value) =>
      (adapter.policy.find sha256 (Bytes.utf8 value)).or (forbiddenAuthorityMarker key)) = none ∧
    findForbiddenWorkspaceAuthority sha256 adapter.root adapter.workspaceScanLimit
      adapter.policy = .ok none := by
  unfold IsolatedSeatProcessAdapter.authorityIsClean
  generalize (spec.executable :: spec.arguments).findSome? _ = argument
  generalize adapter.environment.findSome? _ = setting
  generalize findForbiddenWorkspaceAuthority sha256 adapter.root adapter.workspaceScanLimit
    adapter.policy = scan
  cases argument with
  | some authority => simp
  | none =>
      cases setting with
      | some authority => simp
      | none =>
          cases scan with
          | error e => simp
          | ok found => cases found <;> simp

theorem tree_passes_iff {root : Directory} {policy : ForbiddenAuthorityPolicy Digest} :
    (∀ directory ∈ Worklist.descendants below_shrinks root, directory.Passes sha256 policy) ↔
      (∀ directory ∈ Worklist.descendants below_shrinks root, directory.listed = true) ∧
        ∀ entry ∈ root.entriesBelow, entry.Passes sha256 policy := by
  constructor
  · intro h
    refine ⟨fun directory hDirectory => (h directory hDirectory).1, ?_⟩
    intro entry hEntry
    obtain ⟨directory, hDirectory, hMem⟩ := List.mem_flatMap.mp hEntry
    exact (h directory hDirectory).2 entry hMem
  · intro ⟨hListed, hEntries⟩ directory hDirectory
    exact ⟨hListed directory hDirectory,
      fun entry hMem => hEntries entry (List.mem_flatMap.mpr ⟨directory, hDirectory, hMem⟩)⟩

/-- What the check amounts to. -/
theorem authorityIsClean_iff
    (hPolicy : ForbiddenAuthorityPolicy.ofCapabilities sha256 registered = .ok adapter.policy)
    (hInjective : ∀ a b, isCapability a = true → isCapability b = true → sha256 a = sha256 b → a = b) :
    (adapter.authorityIsClean sha256 now spec).1 = true ↔
      Unforbidden IsText registered adapter spec ∧ adapter.root.Fits adapter.workspaceScanLimit ∧
        Readable adapter.root := by
  have hFind : ∀ bytes, adapter.policy.find sha256 bytes = none ↔
      ∀ r ∈ registered, ¬ Bytes.utf8 r.2 <:+: bytes := fun _ => find_eq_none hPolicy hInjective
  rw [authorityIsClean_searches, find_eq_ok_none, tree_passes_iff, List.findSome?_eq_none_iff,
    List.findSome?_eq_none_iff]
  simp only [Option.or_eq_none_iff, hFind, forbiddenAuthorityMarker_eq_none]
  constructor
  · rintro ⟨hArguments, hEnvironment, ⟨hListed, hEntries⟩, hFits⟩
    refine ⟨⟨hArguments, hEnvironment, ?_, ?_, ?_⟩, hFits, hListed,
      fun entry hEntry => (hEntries entry hEntry).readable, ?_⟩
    · intro entry hEntry contents hFile
      exact (hFind contents).mp ((hEntries entry hEntry).file contents hFile).2.2
    · intro entry hEntry hLink
      exact name_passes_iff.mp ((hEntries entry hEntry).name hLink)
    · exact fun entry hEntry => (hEntries entry hEntry).kind
    · intro entry hEntry contents hFile
      obtain ⟨hMetadata, hRead, -⟩ := (hEntries entry hEntry).file contents hFile
      exact ⟨hMetadata, hRead⟩
  · rintro ⟨hClean, hFits, hReadable⟩
    refine ⟨hClean.arguments, hClean.environment, ⟨hReadable.directories, ?_⟩, hFits⟩
    intro entry hEntry
    refine ⟨hReadable.entries entry hEntry, fun hLink =>
      name_passes_iff.mpr (hClean.names entry hEntry hLink), hClean.kinds entry hEntry, ?_⟩
    intro contents hFile
    obtain ⟨hMetadata, hRead⟩ := hReadable.files entry hEntry contents hFile
    exact ⟨hMetadata, hRead, (hFind contents).mpr (hClean.contents entry hEntry contents hFile)⟩

/-- Nothing forbidden gets past the check, and nothing else is stopped by it: exactly unless the
only thing to be found is the name of an entry that is no text. -/
theorem authority_is_clean_iff {sha256 : List UInt8 → Digest}
    {adapter : IsolatedSeatProcessAdapter Digest}
    {registered : List (ForbiddenAuthorityKind × String)}
    (hPolicy : ForbiddenAuthorityPolicy.ofCapabilities sha256 registered = .ok adapter.policy)
    (hInjective : ∀ a b, isCapability a = true → isCapability b = true → sha256 a = sha256 b → a = b)
    (spec : ProcessSpec) (now : Int64) :
    StopsForbidden sha256 registered adapter spec now ↔
      ((∀ entry ∈ adapter.root.entriesBelow, entry.2 ≠ .symlink → ¬ IsText entry.1.fileName →
        ¬ Marked entry.1.fileName) ∨
      ¬ (Unforbidden IsText registered adapter spec ∧
        adapter.root.Fits adapter.workspaceScanLimit ∧ Readable adapter.root)) := by
  have hStarts : (adapter.authorityIsClean sha256 now spec).1 = true ↔ _ :=
    authorityIsClean_iff hPolicy hInjective
  constructor
  · intro ⟨hFound, _⟩
    rw [hStarts] at hFound
    by_cases hStarts : Unforbidden IsText registered adapter spec ∧
        adapter.root.Fits adapter.workspaceScanLimit ∧ Readable adapter.root
    · left
      intro entry hEntry hLink _
      exact (hFound hStarts).names entry hEntry hLink trivial
    · exact .inr hStarts
  · intro hCondition
    constructor <;> rw [hStarts]
    · intro hStarts
      rcases hCondition with hHidden | hStopped
      · refine { hStarts.1 with names := ?_ }
        intro entry hEntry hLink _
        by_cases hText : IsText entry.1.fileName
        · exact hStarts.1.names entry hEntry hLink hText
        · exact hHidden entry hEntry hLink hText
      · exact absurd hStarts hStopped
    · intro hClean hFits hReadable
      refine ⟨{ hClean with names := ?_ }, hFits, hReadable⟩
      exact fun entry hEntry hLink _ => hClean.names entry hEntry hLink trivial

/-- The capability of an operator, with all digits zero. -/
def operatorCapability : String :=
  "wa_cap_v1.00000000000000000000000000000000." ++
    "0000000000000000000000000000000000000000000000000000000000000000"

/-- A workspace with one empty file, whose name is a marker and a byte that no text has. -/
def hiddenMarker : IsolatedSeatProcessAdapter (List UInt8) where
  root := ⟨[(⟨Bytes.utf8 "administrator" ++ [255], ⟨false, false, false, false⟩⟩, .file [])], true⟩
  environment := [("PATH", "/usr/bin")]
  policy := ⟨[(Bytes.utf8 operatorCapability, .administrator)], by simp⟩
  runId := "run"
  seatId := "seat"
  workspaceScanLimit := 1024

def agentSpec : ProcessSpec := ⟨"agent", ["--stdio"], none⟩

theorem hiddenMarker_policy : ForbiddenAuthorityPolicy.ofCapabilities id
    [(.administrator, operatorCapability)] = .ok hiddenMarker.policy := by
  have hCapability : isCapability (Bytes.utf8 operatorCapability) = true := by decide +kernel
  rw [ForbiddenAuthorityPolicy.ofCapabilities, List.mapM_cons, List.mapM_nil]
  dsimp only
  rw [ForbiddenAuthorityFingerprint.new, if_pos hCapability]
  rfl

/-- The name of a file gives an administrator away, and the process is started. -/
theorem hidden_marker_starts : ¬ StopsForbidden id [(.administrator, operatorCapability)]
    hiddenMarker agentSpec 0 := by
  intro h
  have hClean := h.clean (by decide +kernel)
  have hEntries : hiddenMarker.root.entriesBelow = hiddenMarker.root.entries := by
    rw [Directory.entriesBelow, Worklist.descendants_eq]
    rfl
  refine hClean.names (⟨Bytes.utf8 "administrator" ++ [255], ⟨false, false, false, false⟩⟩, .file [])
    (hEntries ▸ List.mem_cons_self) nofun trivial ⟨"administrator", by decide, ?_⟩
  decide +kernel

theorem authority_is_clean_iff_hiddenMarker :
    StopsForbidden id [(.administrator, operatorCapability)] hiddenMarker agentSpec 0 ↔
      ((∀ entry ∈ hiddenMarker.root.entriesBelow, entry.2 ≠ .symlink → ¬ IsText entry.1.fileName →
        ¬ Marked entry.1.fileName) ∨
      ¬ (Unforbidden IsText [(.administrator, operatorCapability)] hiddenMarker agentSpec ∧
        hiddenMarker.root.Fits hiddenMarker.workspaceScanLimit ∧ Readable hiddenMarker.root)) :=
  authority_is_clean_iff hiddenMarker_policy (fun _ _ _ _ h => h) agentSpec 0

end Adapter

end WordArena.Agent
