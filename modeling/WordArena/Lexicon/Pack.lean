import Mathlib.Data.Finset.Max
import Mathlib.Data.List.Sort
import WordArena.Library.FileTree
import WordArena.Library.Framing
import WordArena.Lexicon.Manifest

/-! Validation of unpacked lexicon packs: the manifest, the complete file set, and the
sizes and digests of all payload files. A hash in progress is the bytes it was fed. -/
namespace WordArena.Lexicon

open Fallible FileTree

/-- Names below a directory are bytes without a separator, and never the dot names. -/
def EntryName (name : List UInt8) : Prop :=
  name ≠ [] ∧ 0x2f ∉ name ∧ 0 ∉ name ∧ name ≠ [0x2e] ∧ name ≠ [0x2e, 0x2e]

/-- The directory that holds a pack. -/
structure PackRoot where
  entries : Entries (List UInt8)
  wellFormed : entries.WellFormed EntryName

def PackRoot.stat (root : PackRoot) (path : List (List UInt8)) :
    Except IoError (Node (List UInt8)) :=
  (Node.directory root.entries).stat path

structure ValidatedPack where
  manifest : PackManifest
  identity : PackIdentity
deriving DecidableEq

section FileSet

def joinSegments (segments : List String) : String :=
  String.ofList (['/'].intercalate (segments.map String.toList))

/-- Entries are found below the root and under plain names, so that only their encoding
can fail. -/
def portableRelativePath (path : List (List UInt8)) : Except PackError String := do
  let segments ← path.mapM fun name => okOr (Bytes.decode name) PackError.nonUtf8Path
  return joinSegments segments

def resolvePayloadPath (relative : String) : List (List UInt8) :=
  (components relative).map Bytes.utf8

mutual

/-- Links are not followed: they are neither a directory nor a regular file. -/
def collectNode (path : List (List UInt8)) (relative : String) (files : Finset String) :
    Node (List UInt8) → Except PackError (Finset String)
  | .directory entries => collectPackFilesFrom path files entries
  | .file _ => .ok (insert relative files)
  | .special _ => .error (.payloadNotRegularFile relative)

def collectPackFilesFrom (directory : List (List UInt8)) (files : Finset String) :
    Entries (List UInt8) → Except PackError (Finset String)
  | .nil => .ok files
  | .cons name node rest => do
      let relative ← portableRelativePath (directory ++ [name])
      let files ← collectNode (directory ++ [name]) relative files node
      collectPackFilesFrom directory files rest

end

def collectPackFiles (root : PackRoot) : Except PackError (Finset String) :=
  collectPackFilesFrom [] ∅ root.entries

def validateCompleteFileSet (root : PackRoot) (files : List FileDescriptor) :
    Except PackError Unit := do
  let expected := insert manifestFile (files.map (·.path)).toFinset
  let actual ← collectPackFiles root
  files.forM fun descriptor =>
    reject (descriptor.path ∉ actual) (.missingPayloadFile descriptor.path)
  if h : (actual \ expected).Nonempty then
    .error (.unexpectedPayloadFile ((actual \ expected).min' h))
  else .ok ()

end FileSet

section Content

def contentHashDomain : List UInt8 := Bytes.utf8 "word-arena-pack-content-v1" ++ [0]

def readBufferSize : Nat := 64 * 1024

/-- What a reader delivers, one buffer at a time. -/
def readChunks (bytes : List UInt8) : List (List UInt8) :=
  (List.range ((bytes.length + (readBufferSize - 1)) / readBufferSize)).map fun i =>
    (bytes.drop (i * readBufferSize)).take readBufferSize

/-- Both hashes and the size while a payload file is read. -/
structure PayloadReader where
  content : List UInt8
  file : List UInt8
  observedSize : Nat

def PayloadReader.update (reader : PayloadReader) (chunk : List UInt8) :
    Except PackError PayloadReader := do
  reject (2 ^ 64 ≤ reader.observedSize + chunk.length) PackError.io
  return ⟨reader.content ++ chunk, reader.file ++ chunk, reader.observedSize + chunk.length⟩

/-- Feed one payload file to the hash of the content. -/
def hashPayload (tools : PackTools) (root : PackRoot) (content : List UInt8)
    (descriptor : FileDescriptor) : Except PackError (List UInt8) := do
  let node ← mapErr (fun error => if error = .notFound
    then PackError.missingPayloadFile descriptor.path else PackError.io)
    (root.stat (resolvePayloadPath descriptor.path))
  match node with
  | .file bytes =>
      reject (bytes.length ≠ descriptor.sizeBytes.toNat)
        (.fileSizeMismatch descriptor.path descriptor.sizeBytes bytes.length)
      let pathBytes := Bytes.utf8 descriptor.path
      reject (2 ^ 64 ≤ pathBytes.length) (.invalidManifestField "files.path" descriptor.path
        "path length cannot exceed the portable u64 framing limit")
      let content := content ++ Bytes.bigEndian 8 pathBytes.length ++ pathBytes ++
        Bytes.bigEndian 8 descriptor.sizeBytes.toNat
      let reader ← (readChunks bytes).foldlM PayloadReader.update ⟨content, [], 0⟩
      reject (reader.observedSize ≠ descriptor.sizeBytes.toNat)
        (.fileSizeMismatch descriptor.path descriptor.sizeBytes reader.observedSize)
      reject (tools.digestHex reader.file ≠ descriptor.sha256)
        (.fileChecksumMismatch descriptor.path descriptor.sha256 (tools.digestHex reader.file))
      return reader.content
  | _ => .error (.payloadNotRegularFile descriptor.path)

/-- The bytes that the content hash is fed. Paths are unique, and code points are ordered
as their bytes are. -/
def contentStream (tools : PackTools) (root : PackRoot) (files : List FileDescriptor) :
    Except PackError (List UInt8) := do
  let _ ← files.foldlM (recordPath fun descriptor => validateFilePath descriptor.path) ∅
  let ordered := files.insertionSort fun left right => left.path ≤ right.path
  ordered.foldlM (hashPayload tools root) contentHashDomain

def calculateContentSha256 (tools : PackTools) (root : PackRoot) (files : List FileDescriptor) :
    Except PackError String := do
  let stream ← contentStream tools root files
  return tools.digestHex stream

end Content

def readManifest (root : PackRoot) : Except PackError String := do
  let bytes ← mapErr (fun error => if error = .notFound then PackError.missingManifest
    else PackError.io) (root.stat (resolvePayloadPath manifestFile) >>= Node.read)
  okOr (Bytes.decode bytes) PackError.io

/-- Parse and validate a complete unpacked pack directory. -/
def validatePack (tools : PackTools) (root : PackRoot) : Except PackError ValidatedPack := do
  let manifestToml ← readManifest root
  let manifest ← okOr (tools.parseManifest manifestToml) PackError.manifestSyntax
  manifest.validateSchema tools
  validateCompleteFileSet root manifest.files
  let calculated ← calculateContentSha256 tools root manifest.files
  reject (calculated ≠ manifest.contentSha256)
    (.contentChecksumMismatch manifest.contentSha256 calculated)
  return ⟨manifest, manifest.identity⟩

end WordArena.Lexicon
