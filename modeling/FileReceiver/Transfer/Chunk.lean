/-
# Receiving a chunk

Chunks are put behind each other in the staging file; the first one starts
the file anew. Once as many bytes as declared have come, the hash is
compared, an older file at the final path is removed, and the staging file
takes its place. A chunk that cannot be written whole is cut off again, so
that it can be sent once more. A chunk for a complete file is ignored.

Key definitions: `ChunkResult`, `ChunkReport`, `Transfer.append`,
`Transfer.promote`, `Transfer.receive`.
-/
import FileReceiver.Digest.FileHash
import FileReceiver.Disk.Calls
import FileReceiver.Transfer.Basic

namespace FileReceiver

/-- The three ways in which a chunk is answered. -/
inductive ChunkStatus where
  | receiving
  | completed
  | failed
deriving DecidableEq, Repr

/-- What became of a chunk. -/
inductive ChunkResult where
  | taken
  | completed
  /-- The file is complete, and its hash is not the announced one. -/
  | completedWithOtherHash
  | alreadyCompleted
  | failed (e : SystemError)
deriving DecidableEq, Repr

namespace ChunkResult

def status : ChunkResult → ChunkStatus
  | taken => .receiving
  | completed | completedWithOtherHash | alreadyCompleted => .completed
  | failed _ => .failed

def message : ChunkResult → String
  | taken => "Chunk processed successfully"
  | completed => "File transfer completed"
  | completedWithOtherHash => "File transfer completed (hash mismatch)"
  | alreadyCompleted => "File already completed"
  | failed e => e.message

end ChunkResult

/-- The answer to a chunk. -/
structure ChunkReport where
  sessionId : String
  fileId : String
  result : ChunkResult
  processed : Nat
  hashVerified : Option Bool
deriving DecidableEq, Repr

namespace Transfer

/-- Opens the staging file: anew for the first bytes, at its end for the others. -/
def openStaging (t : Transfer) (d : Disk) : Outcome Location :=
  if 0 < t.received then d.openEnd t.stagingPath else d.openFresh t.stagingPath Disk.privateMode

/-- Puts a chunk behind what has come. What a failing write leaves behind is cut off. -/
def append (t : Transfer) (bytes : ByteArray) (d : Disk) : Outcome Unit :=
  match t.openStaging d with
  | (.error e, d) => (.error e, d)
  | (.ok loc, d) =>
    match d.write loc bytes with
    | (.ok (), d) => (.ok (), d)
    | (.error e, d) => (.error e, (d.setLength loc t.received).2)

/-- Compares the staging file with the announced hash, if there is one. -/
def verify (t : Transfer) (d : Disk) : Except SystemError Transfer × Disk :=
  match t.hash with
  | none => (.ok t, d)
  | some announced =>
    match d.read t.stagingPath with
    | (.error e, d) => (.error e, d)
    | (.ok content, d) =>
      let agrees := FileHash.agree announced (FileHash.ofContent content)
      (.ok { t with hashVerified := some agrees }, d)

/-- Removes a file that must not stand at a path; that there is none is no failure. -/
def clear (p : Path) (d : Disk) : Outcome Unit :=
  match d.remove p with
  | (.ok (), d) => (.ok (), d)
  | (.error e, d) => if e = .noEntry then (.ok (), d) else (.error e, d)

/-- Moves the staging file to the final path. -/
def promote (t : Transfer) (d : Disk) : Outcome Unit :=
  match clear t.finalPath d with
  | (.error e, d) => (.error e, d)
  | (.ok (), d) => d.rename t.stagingPath t.finalPath

/-- What completing a file is reported as. -/
def completion (t : Transfer) : ChunkResult :=
  if t.hashVerified = some false then .completedWithOtherHash else .completed

/-- Completes a transfer whose bytes have all come. -/
def finish (t : Transfer) (d : Disk) : ChunkResult × Transfer × Disk :=
  match t.verify d with
  | (.error e, d) => (.failed e, t, d)
  | (.ok t, d) =>
    match t.promote d with
    | (.error e, d) => (.failed e, t, d)
    | (.ok (), d) => (t.completion, { t with completed := true }, d)

/-- Takes a chunk. -/
def receive (t : Transfer) (bytes : ByteArray) (d : Disk) : ChunkResult × Transfer × Disk :=
  if t.completed then (.alreadyCompleted, t, d)
  else
    match t.append bytes d with
    | (.error e, d) => (.failed e, t, d)
    | (.ok (), d) =>
      let t := { t with received := t.received + bytes.size }
      if t.received < t.declaredSize.toNat then (.taken, t, d) else t.finish d

/-- The report about a chunk, from the transfer as it is after it. -/
def report (t : Transfer) (sessionId : String) (result : ChunkResult) : ChunkReport :=
  ⟨sessionId, t.fileId, result, t.received, t.hashVerified⟩

end Transfer

end FileReceiver
