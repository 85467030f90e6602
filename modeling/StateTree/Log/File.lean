/-
Module: StateTree.Log.File
Purpose: A log in a directory: a segment file of framed records, and the manifest and the latest
  snapshot as files that are replaced as a whole. Opening scans the segment and cuts off what
  follows the last intact frame. The records found are kept in memory.
-/
import StateTree.Format.Json.Pretty
import StateTree.Log.Call
import StateTree.Log.Directory
import StateTree.Log.Frame

namespace StateTree

/-- When writes reach the disk. -/
inductive SyncMode where
  /-- Each on its own, before the call returns. -/
  | everyWrite
  /-- When the system sees fit. -/
  | whenConvenient
deriving DecidableEq

instance : Codec SyncMode :=
  .ofNames [(.everyWrite, "every_write"), (.whenConvenient, "os_default")]

/-- How a log in a directory is kept. -/
structure FileLogConfig where
  syncMode : SyncMode
deriving DecidableEq

namespace FileLogConfig

def standard : FileLogConfig := ⟨.whenConvenient⟩

/-- Every write reaches the disk before its call returns. -/
def durable : FileLogConfig := ⟨.everyWrite⟩

instance : Codec FileLogConfig where
  toJson config := .ofMembers [("sync_mode", Codec.toJson config.syncMode)]
  ofJson? depth json := do
    let slots ← Json.slots? ["sync_mode"] depth json
    let syncMode ← slots.orDefault 0 .whenConvenient Codec.ofJson?
    pure ⟨syncMode⟩
  put config := Codec.put config.syncMode
  get := do
    let syncMode ← Codec.get
    pure ⟨syncMode⟩

end FileLogConfig

/-- An open log in a directory. `segment` is the number of the open segment file, `length` where
its next frame is taken to begin, `first` the number of the first retained record. The retained
records are kept latest first, with the offsets of their frames. -/
structure FileLog where
  config : FileLogConfig
  segment : Nat
  length : Nat
  first : Nat
  records : List (Nat × LogRecord)
  feed : Feed

namespace FileLog

def segmentName : String := "log.wal"

def manifestName : String := "manifest.json"

def stateName : String := "state.bin"

/-- The number that the next record will get. -/
def head (log : FileLog) : Nat :=
  match log.records with
  | (_, latest) :: _ => latest.number + 1
  | [] => log.first

/-- The stored manifest. -/
def readManifest (directory : Directory) : Except LogError (Option Manifest) :=
  match directory.read manifestName with
  | .ok (some bytes) =>
      match Codec.ofJsonText? bytes with
      | some manifest => .ok (some manifest)
      | none => .error .codec
  | .ok none => .ok none
  | .error error => .error error

/-- The latest snapshot. -/
def readState (directory : Directory) : Except LogError (Option StateDocument) :=
  match directory.read stateName with
  | .ok (some bytes) =>
      match Codec.ofBinary? bytes with
      | some document => .ok (some document)
      | none => .error .codec
  | .ok none => .ok none
  | .error error => .error error

def writeManifest (directory : Directory) (manifest : Manifest) : Except LogError Directory :=
  directory.replace manifestName (Codec.toJson manifest).pretty

def writeState (directory : Directory) (document : StateDocument) : Except LogError Directory :=
  directory.replace stateName (Codec.put document)

/-- The number of the first record that a log is taken to retain. Records are only discarded once a
snapshot covers them. -/
def firstRetained (state : Option StateDocument) (records : List (Nat × LogRecord)) : Nat :=
  match state, records with
  | some document, (_, record) :: _ => min document.position record.number
  | some document, [] => document.position
  | none, _ => 0

/-- Open the log of a directory, made if it is not there. What follows the last intact frame of the
segment is cut off even if opening fails after that. -/
def openIn (config : FileLogConfig) (directory : Directory) : Except LogError FileLog × Directory :=
  let directory := directory.make
  match directory.openFile segmentName with
  | .error error => (.error error, directory)
  | .ok (segment, directory) =>
      let scan := Frame.scan ((directory.contents segmentName).toOption.getD [])
      let directory := directory.truncate segment scan.length
      match readState directory with
      | .error error => (.error error, directory)
      | .ok state =>
          let log : FileLog :=
            { config := config
              segment := segment
              length := scan.length
              first := firstRetained state scan.records
              records := scan.records.reverse
              feed := ⟨0, 0⟩ }
          (.ok { log with feed := ⟨log.head, 0⟩ }, directory)

/-- Drop the records before a position: the frames from the first retained one on become a segment
of their own, which takes the place of the old one. -/
def discardBefore (log : FileLog) (directory : Directory) (position : Nat) :
    Except LogError (FileLog × Directory) :=
  let position := min position log.head
  if position ≤ log.first then .ok (log, directory)
  else do
    let cut :=
      match log.records.reverse.find? fun entry => position ≤ entry.2.number with
      | some (offset, _) => offset
      | none => log.length
    let bytes ← directory.contents segmentName
    let remaining := bytes.drop cut
    let directory ← directory.replace segmentName remaining
    let (segment, directory) ← directory.openFile segmentName
    let kept := log.records.filter fun entry => position ≤ entry.2.number
    pure
      ({ log with
          segment := segment
          length := remaining.length
          first := position
          records := kept.map fun entry => (entry.1 - cut, entry.2) },
        directory)

/-- A result of writing a document, with the directory as it is then. -/
def wrote (log : FileLog) (directory : Directory) :
    Except LogError Directory → Except LogError Unit × FileLog × Directory
  | .ok directory => (.ok (), log, directory)
  | .error error => (.error error, log, directory)

/-- Answer a call. -/
def perform (log : FileLog) (directory : Directory) {α : Type} :
    LogCall α → Except LogError α × FileLog × Directory
  | .manifest => (readManifest directory, log, directory)
  | .initializeManifest manifest =>
      match readManifest directory with
      | .ok (some stored) => (.ok stored, log, directory)
      | .error error => (.error error, log, directory)
      | .ok none =>
          match writeManifest directory manifest with
          | .ok directory => (.ok manifest, log, directory)
          | .error error => (.error error, log, directory)
  | .state => (readState directory, log, directory)
  | .replaceState expected document =>
      match readState directory with
      | .error error => (.error error, log, directory)
      | .ok stored =>
          let actual := stored.map StateDocument.revision
          if actual = expected then log.wrote directory (writeState directory document)
          else (.error (.revisionConflict expected actual), log, directory)
  | .upgrade expected manifest document =>
      match readManifest directory with
      | .error error => (.error error, log, directory)
      | .ok stored =>
          if stored = some expected then
            match document with
            | none => log.wrote directory (writeManifest directory manifest)
            | some document =>
                -- The document names its own format, so no reader takes it for another in between.
                match writeState directory document with
                | .error error => (.error error, log, directory)
                | .ok directory => log.wrote directory (writeManifest directory manifest)
          else (.error (.manifestMismatch (stored.getD expected) manifest), log, directory)
  | .append correlation body =>
      let record : LogRecord := ⟨log.head, correlation, body⟩
      let frame := Frame.ofRecord record
      if UInt32.size + Frame.headerSize ≤ frame.length then (.error .codec, log, directory)
      else
        (.ok record.number,
          { log with
            length := log.length + frame.length
            records := (log.length, record) :: log.records
            feed := log.feed.announce (record.number + 1) },
          directory.append log.segment frame)
  | .readFrom position =>
      if position < log.first then (.error (.compacted position log.first), log, directory)
      else
        let retained := log.records.filter fun entry => position ≤ entry.2.number
        (.ok (retained.reverse.map Prod.snd), log, directory)
  | .head => (.ok log.head, log, directory)
  | .discardBefore position =>
      match log.discardBefore directory position with
      | .ok (log, directory) => (.ok (), log, directory)
      | .error error => (.error error, log, directory)

end FileLog

end StateTree
