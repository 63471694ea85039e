import Linrdp.Lib.Bytes
import Linrdp.Lib.Runs
import Linrdp.Lib.TextLines

/-!
# The download of the client's files

`Download` of `clipboard.rs`: the files of the client's list one after another, each with a request
for its size where the list does not give it and requests for its ranges. A path is the list of its
components, a file the list of the chunks written to it; the answers of the session's file helper
are inputs. A download keeps some things the source does not: the closed files with their chunks,
the sizes the client has answered, and with each entry of `done` the number of its descriptor.
-/

namespace Linrdp.Clipboard.Paste

open Lib.Bytes Lib.TextLines

abbrev Bytes := List UInt8

abbrev Name := List Char

abbrev Path := List Name

structure FileDescriptor where
  name : Name
  relativePath : Option Name
  directory : Bool
  fileSize : Option ℕ

def fileChunkSize : ℕ := 512 * 1024

def maxFileSize : ℕ := 2 * 1024 * 1024 * 1024

def maxTotalSize : ℕ := 4 * 1024 * 1024 * 1024

/-! ### Names -/

def isSeparator (c : Char) : Bool := c == '/' || c == '\\'

def directories (relativeDir : Option Name) : Path :=
  match relativeDir with
  | none => []
  | some rel => ((rel.splitOnP isSeparator).map trim).filter fun c =>
      !(c.isEmpty || c == ['.'] || c == ['.', '.'])

/-- The path of a descriptor. A last component `.` is none: the components of a path leave it out.
-/
def safeRelative (relativeDir : Option Name) (name : Name) : Option Path :=
  let name := trim name
  if name.isEmpty || name.any isSeparator then none
  else some (directories relativeDir ++ if name = ['.'] then [] else [name])

def FileDescriptor.path (f : FileDescriptor) : Option Path := safeRelative f.relativePath f.name

/-! ### The state of a download -/

structure DownloadTarget where
  index : ℕ
  path : Path
  size : Option ℕ
deriving DecidableEq

inductive CurrentDownload
  | sizeQuery (index : ℕ) (path : Path)
  | ranges (file : List Bytes) (index : ℕ) (path : Path) (remaining offset : ℕ)
deriving DecidableEq

structure Closed where
  index : ℕ
  path : Path
  size : ℕ
  file : List Bytes
  complete : Bool
deriving DecidableEq

structure Download where
  clipDataId : Option ℕ
  (streamId nextStreamId : ℕ)
  pending : List DownloadTarget
  current : Option CurrentDownload
  done : List (ℕ × Path)
  expected : List Path
  totalBudget : ℕ
  closed : List Closed
  answered : List (ℕ × ℕ)
deriving DecidableEq

structure Helper where
  (create makeDir : ℕ → Bool)

inductive FileContentsFlags
  | size | range
deriving DecidableEq

structure FileContentsRequest where
  (streamId index : ℕ)
  flags : FileContentsFlags
  (position requestedSize : ℕ)
  dataId : Option ℕ
deriving DecidableEq

structure FileContentsResponse where
  streamId : ℕ
  /-- none for an error -/
  data : Option Bytes
  writeError : Option ℕ

variable (h : Helper)

namespace Download

variable (d : Download)

def allocStreamId : Download :=
  { d with nextStreamId := (d.nextStreamId + 1) % 2 ^ 32, streamId :=
    (d.nextStreamId + 1) % 2 ^ 32 }

def close (file : Closed) : Download :=
  { d with
    current := none
    closed := d.closed ++ [file]
    done := if file.complete then d.done ++ [(file.index, file.path)] else d.done }

def skipCurrent : Download :=
  match d.current with
  | some (.ranges file index path remaining offset) =>
    d.close ⟨index, path, offset + remaining, file, false⟩
  | _ => { d with current := none }

def startRanges (index : ℕ) (path : Path) (size : ℕ) : Download :=
  { d with totalBudget := d.totalBudget - size, current := some (.ranges [] index path size 0) }

def advanceFrom (h : Helper) : List DownloadTarget → Download → Download
  | [], d => { d with pending := [] }
  | t :: rest, d =>
    match t.size with
    | none => { d.allocStreamId with pending := rest, current := some (.sizeQuery t.index t.path) }
    | some 0 =>
      if h.create t.index then advanceFrom h rest (d.close ⟨t.index, t.path, 0, [], true⟩)
      else advanceFrom h rest d
    | some size =>
      if size > maxFileSize ∨ size > d.totalBudget then advanceFrom h rest d
      else if h.create t.index then
        { (d.startRanges t.index t.path size).allocStreamId with pending := rest }
      else advanceFrom h rest d

def advance : Download :=
  match d.current with
  | some _ => d
  | none => advanceFrom h d.pending d

def requestForCurrent : Option FileContentsRequest :=
  d.current.map fun
    | .sizeQuery index _ => ⟨d.streamId, index, .size, 0, 8, d.clipDataId⟩
    | .ranges _ index _ remaining offset =>
      ⟨d.streamId, index, .range, offset, min fileChunkSize remaining, d.clipDataId⟩

def startSized (index : ℕ) (path : Path) (size : ℕ) (d : Download) : Download :=
  if size = 0 then
    if h.create index then d.close ⟨index, path, 0, [], true⟩ else { d with current := none }
  else if size ≤ maxFileSize ∧ size ≤ d.totalBudget then
    if h.create index then d.startRanges index path size else { d with current := none }
  else { d with current := none }

def receiveSize (index : ℕ) (path : Path) (data : Bytes) (d : Download) : Download :=
  if data.length = 8 then
    { d with answered := d.answered ++ [(index, ofLe data)] }.startSized h index path (ofLe data)
  else { d with current := none }

def receiveRange (file : List Bytes) (index : ℕ) (path : Path) (remaining offset : ℕ) (data : Bytes)
    (writeError : Option ℕ) (d : Download) : Download :=
  let take := min data.length remaining
  if take = 0 then d.skipCurrent
  else
    match writeError with
    | some written =>
      d.close ⟨index, path, offset + remaining, file ++ [(data.take take).take written], false⟩
    | none =>
      if remaining - take = 0 then
        d.close ⟨index, path, offset + remaining, file ++ [data.take take], true⟩
      else
        let more := file ++ [data.take take]
        { d with current := some (.ranges more index path (remaining - take) (offset + take)) }

end Download

/-! ### Publication -/

/-- One path of the loop of `publication_roots`: the roots in the order they come, with whether all
of their paths so far are complete. -/
def noteRoot (done : List Path) (status : List (Name × Bool)) (path : Path) : List (Name × Bool) :=
  match path.head? with
  | none => status
  | some root =>
    if status.any fun s => s.1 == root then
      status.map fun s => if s.1 = root then (s.1, s.2 && done.contains path) else s
    else status ++ [(root, done.contains path)]

def publicationRoots (expected done : List Path) : List Name :=
  ((expected.foldl (noteRoot done) []).filter Prod.snd).map Prod.fst

inductive Transfer
  | running (d : Download)
  | finished (d : Download) (roots : List Name)
deriving DecidableEq

def Transfer.download : Transfer → Download
  | .running d => d
  | .finished d _ => d

def settle (d : Download) : Transfer × Option FileContentsRequest :=
  let d := d.advance h
  match d.requestForCurrent with
  | some request => (.running d, some request)
  | none => (.finished d (publicationRoots d.expected (d.done.map Prod.snd)), none)

def onFileContentsResponse (r : FileContentsResponse) :
    Transfer → Transfer × Option FileContentsRequest
  | .finished d roots => (.finished d roots, none)
  | .running d =>
    if r.streamId ≠ d.streamId then (.running d, none)
    else
      match r.data, d.current with
      | none, _ => settle h d.skipCurrent
      | some _, none => (.running d, none)
      | some data, some (.sizeQuery index path) => settle h (d.receiveSize h index path data)
      | some data, some (.ranges file index path remaining offset) =>
        settle h (d.receiveRange file index path remaining offset data r.writeError)

/-- The loop over the client's list: directories are made at once, files are downloaded, and what
has no safe path is left out. -/
def listed (h : Helper) : ℕ → List FileDescriptor → Download → Download
  | _, [], d => d
  | i, f :: fs, d =>
    match f.path with
    | none => listed h (i + 1) fs d
    | some path =>
      let d := { d with expected := d.expected ++ [path] }
      if f.directory then
        listed h (i + 1) fs (if h.makeDir i then { d with done := d.done ++ [(i, path)] } else d)
      else listed h (i + 1) fs { d with pending := d.pending ++ [⟨i, path, f.fileSize⟩] }

def newDownload (clipDataId : Option ℕ) : Download :=
  ⟨clipDataId, 0, 1, [], none, [], [], maxTotalSize, [], []⟩

def onRemoteFileList (clipDataId : Option ℕ) (files : List FileDescriptor) :
    Transfer × Option FileContentsRequest := settle h (listed h 0 files (newDownload clipDataId))

end Linrdp.Clipboard.Paste
