import Aprovan.Library.CrashSafety
import Aprovan.Vcs.ChatSessions

/-!
# Durable documents

The state of a live document is kept as a snapshot, which carries the hash that
its file had, and a log of updates; a load that finds another hash takes the
file for restored.  A document is a join of updates.  Ids, times and the client
id of a new document are sequences drawn from outside.
-/

namespace Aprovan.Doc

open Aprovan.Library

structure FileVersion where
  (content hash : Text)

structure SnapshotRecord (Doc : Type) where
  data : Doc
  updatedAt : Nat
  fileHash : Option Text

structure UpdateRecord (Doc : Type) where
  data : Doc
  createdAt : Nat

inductive DocStatement (Doc : Type) where
  | now
  | randomUUID
  | newClientId
  | readFile
  | writeFile (content : Text)
  | readSnapshot
  | writeSnapshot (record : SnapshotRecord Doc)
  | listUpdateKeys
  | readUpdate (key : Text)
  | writeUpdate (key : Text) (record : UpdateRecord Doc)
  | deleteUpdate (key : Text)

abbrev DocStatement.Answer {Doc : Type} : DocStatement Doc → Type
  | .now => Nat
  | .randomUUID => Text
  | .newClientId => Nat
  | .readFile => Option FileVersion
  | .writeFile _ => FileVersion
  | .readSnapshot => Option (SnapshotRecord Doc)
  | .writeSnapshot _ => Unit
  | .listUpdateKeys => List Text
  | .readUpdate _ => Option (UpdateRecord Doc)
  | .writeUpdate _ _ => Unit
  | .deleteUpdate _ => Bool

abbrev DocCall (Doc : Type) :=
  Process (@DocStatement.Answer Doc) Empty

def ask {Doc : Type} (statement : DocStatement Doc) : DocCall Doc statement.Answer :=
  Process.perform statement

/-- The digest of a file, a document typed by a client, the text of a
document, the bytes of its encoding, and what is drawn from outside. -/
structure DocServices (Doc : Type) where
  sha256 : Text → Text
  typed : Nat → Text → Doc
  text : Doc → Text
  byteLength : Doc → Nat
  uuid : Nat → Text
  clientId : Nat → Nat
  time : Nat → Nat

/-- `drawn` counts the draws from outside. -/
structure DocStores (Doc : Type) where
  drawn : Nat
  file : Option FileVersion
  snapshot : Option (SnapshotRecord Doc)
  updates : Table (UpdateRecord Doc)

section

variable {Doc : Type}

def DocStores.draw (stores : DocStores Doc) : DocStores Doc :=
  { stores with drawn := stores.drawn + 1 }

def execute (services : DocServices Doc) : (statement : DocStatement Doc) → DocStores Doc →
      Except Empty statement.Answer × DocStores Doc
  | .now, stores => (.ok (services.time stores.drawn), stores.draw)
  | .randomUUID, stores => (.ok (services.uuid stores.drawn), stores.draw)
  | .newClientId, stores => (.ok (services.clientId stores.drawn), stores.draw)
  | .readFile, stores => (.ok stores.file, stores)
  | .writeFile content, stores =>
    let version : FileVersion := ⟨content, services.sha256 content⟩
    (.ok version, { stores with file := some version })
  | .readSnapshot, stores => (.ok stores.snapshot, stores)
  | .writeSnapshot record, stores => (.ok (), { stores with snapshot := some record })
  | .listUpdateKeys, stores => (.ok (stores.updates.names.insertionSort (· ≤ ·)), stores)
  | .readUpdate key, stores => (.ok (stores.updates.get key), stores)
  | .writeUpdate key record, stores =>
    (.ok (), { stores with updates := stores.updates.put key record })
  | .deleteUpdate key, stores =>
    (.ok (key ∈ stores.updates.names), { stores with updates := stores.updates.keep (· ≠ key) })

/-- `DOC_COMPACT`. -/
structure CompactThresholds where
  (sizeBytes ageMs : Nat)

variable [SemilatticeSup Doc] [OrderBot Doc]

def writeSnapshot (doc : Doc) (fileHash : Option Text) : DocCall Doc Unit := do
  let updatedAt ← ask .now
  ask (.writeSnapshot ⟨doc, updatedAt, fileHash⟩)

def deleteUpdate (key : Text) : DocCall Doc Unit := do
  let _ ← ask (.deleteUpdate key)

def clearUpdateLog : DocCall Doc Unit := do
  let keys ← ask .listUpdateKeys
  keys.forM deleteUpdate

/-- A row that is gone when it is read is left out. -/
def readEntry (entries : List (Text × UpdateRecord Doc)) (key : Text) :
    DocCall Doc (List (Text × UpdateRecord Doc)) := do
  match ← ask (.readUpdate key) with
  | none => pure entries
  | some record => pure (entries ++ [(key, record)])

/-- `listSvcRecords` of the log. -/
def listUpdateRecords : DocCall Doc (List (Text × UpdateRecord Doc)) := do
  let keys ← ask .listUpdateKeys
  keys.foldlM readEntry []

/-- A new document; the empty content is not inserted. -/
def docOfFile (services : DocServices Doc) (clientId : Nat) : Option FileVersion → Doc
  | none => ⊥
  | some file =>
    if file.content = [] then ⊥ else services.typed clientId file.content

def initFromFile (services : DocServices Doc) : DocCall Doc Doc := do
  let file ← ask .readFile
  let clientId ← ask .newClientId
  let doc := docOfFile services clientId file
  writeSnapshot doc (file.map FileVersion.hash)
  clearUpdateLog
  pure doc

def applyEntries (doc : Doc) (entries : List (Text × UpdateRecord Doc)) : Doc :=
  entries.foldl (fun doc entry => doc ⊔ entry.2.data) doc

def loadDurable (services : DocServices Doc) : DocCall Doc Doc := do
  let file ← ask .readFile
  let snapshot ← ask .readSnapshot
  match snapshot with
  | none => initFromFile services
  | some record =>
    if file.map FileVersion.hash ≠ record.fileHash then initFromFile services
    else
      let entries ← listUpdateRecords
      pure (applyEntries (⊥ ⊔ record.data) entries)

def nextOrdinal (keys : List Text) : Nat :=
  keys.foldl (fun next key =>
    match Vcs.parseSeqKey key with
    | some (seq, _) => if next ≤ seq then seq + 1 else next
    | none => next) 0

def appendEntry (createdAt nextSeq : Nat) (update : Doc) : DocCall Doc Nat := do
  let id ← ask .randomUUID
  ask (.writeUpdate (Vcs.seqKey nextSeq id) ⟨update, createdAt⟩)
  pure (nextSeq + 1)

def appendUpdate (batch : List Doc) : DocCall Doc Unit := do
  let keys ← ask .listUpdateKeys
  let createdAt ← ask .now
  let _ ← batch.foldlM (appendEntry createdAt) (nextOrdinal keys)

def totalBytes (services : DocServices Doc) (entries : List (Text × UpdateRecord Doc)) : Nat :=
  (entries.map fun entry => services.byteLength entry.2.data).sum

/-- The age of the oldest row has reached the threshold. -/
def ageDue (thresholds : CompactThresholds) (now : Nat)
    (entries : List (Text × UpdateRecord Doc)) : Bool :=
  entries.any fun entry => entry.2.createdAt + thresholds.ageMs ≤ now

def compactIfDue (services : DocServices Doc) (thresholds : CompactThresholds) :
    DocCall Doc Unit := do
  let entries ← listUpdateRecords
  if entries = [] then pure ()
  else
    let now ← ask .now
    if totalBytes services entries < thresholds.sizeBytes ∧
        ageDue thresholds now entries = false then
      pure ()
    else
      let snapshot ← ask .readSnapshot
      let doc := applyEntries (match snapshot with
          | some record => ⊥ ⊔ record.data
          | none => ⊥) entries
      let file ← ask .readFile
      writeSnapshot doc ((file.map FileVersion.hash).or (snapshot.bind SnapshotRecord.fileHash))
      (entries.map Prod.fst).forM deleteUpdate

def materialize (services : DocServices Doc) (doc : Doc) : DocCall Doc Unit := do
  let _ ← ask (.writeFile (services.text doc))

def flushDurableAfterMaterialize (services : DocServices Doc)
    (thresholds : CompactThresholds) (doc : Doc) : DocCall Doc Unit := do
  appendUpdate [doc]
  compactIfDue services { thresholds with sizeBytes := 0 }

def materializeAndFlush (services : DocServices Doc) (thresholds : CompactThresholds) (doc : Doc) :
    DocCall Doc Unit := do
  materialize services doc
  flushDurableAfterMaterialize services thresholds doc

end

end Aprovan.Doc
