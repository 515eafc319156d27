import Mathlib
/-!
# LruCache — the bounded LRU of the service worker (`packages/loader/src/cache.ts`)

The metadata table, the running total beside it, and the calls that are in progress.  The worker is one thread, so what
runs between two awaits is one event; an IndexedDB transaction is an event of its own, and what the source does after
awaiting it is another.  Transactions are numbered in the order they run.  CacheStorage and IndexedDB do not fail here,
and the effective budget is a parameter.
-/
namespace YuriRtc

abbrev Url := List Char

structure Row where
  size : Nat
  usedAt : Nat
  deriving DecidableEq, Repr

abbrev Table := AList (fun _ : Url => Row)

/-- A row with its url, as `getAll` returns it. -/
abbrev LruEntry := Sigma (fun _ : Url => Row)

structure PendingUse where
  size : Option Nat
  usedAt : Nat
  deriving DecidableEq, Repr

abbrev Uses := AList (fun _ : Url => PendingUse)

/-- Where a bounded write is: `checking` and `queued` ask for room, `evicting` holds the eviction lock, `stored` has put
its body in the cache, `touched` has its row committed and `applyDelta` still to run, `applied` has run it. -/
inductive WritePhase
  | checking
  | queued
  | evicting
  | admitted
  | stored
  | touched (txn : Nat) (delta : Int)
  | applied
  deriving DecidableEq, Repr

/-- A call of `putBodyBounded` (its claim is the size), of `evictToFit`, or of `touch` with a size (no claim). -/
structure Write where
  url : Url
  size : Nat
  claim : Nat
  phase : WritePhase
  deriving DecidableEq, Repr

/-- The awaits of `evictFromTable`: for `flushUses` (`batches` still to land), for `syncTotal`'s read (not run, run),
and for each row's `forgetEntry` (chosen, deleted). -/
inductive PassPhase
  | flushing (batches : Nat)
  | syncing (generation mark : Nat)
  | read (txn generation mark : Nat) (all : List LruEntry)
  | evicting (rest : List LruEntry) (projected : Int) (freed : Nat)
  | forgetting (entry : LruEntry) (rest : List LruEntry) (projected : Int) (freed : Nat)
  | forgot (entry : LruEntry) (rest : List LruEntry) (projected : Int) (freed : Nat)
  deriving DecidableEq

structure Pass where
  call : Nat
  phase : PassPhase
  deriving DecidableEq

structure LruCache where
  table : Table
  cached : List Url
  lruBytes : Option Nat
  totalStale : Bool
  committedBytes : Nat
  writesSinceSync : Nat
  lastSyncAt : Nat
  reservedBytes : Nat
  metaGeneration : Nat
  pendingUses : Uses
  flushDue : Bool
  /-- The batches of `writeUses` that have not landed, in order, and the first one's transaction and delta once it ran. -/
  metaWrites : List Uses
  writing : Option (Nat × Int)
  evictions : List Nat
  pass : Option Pass
  writes : AList (fun _ : Nat => Write)
  /-- The rows whose deletion was asked for by `forget` or `invalidateCaches` and has not run. -/
  deletions : List Url
  transactions : Nat

inductive LruEvent
  | noteUse (url : Url) (size : Option Nat) (now : Nat)
  | flush
  | usesCommit
  | usesApply
  | putBodyBounded (call : Nat) (url : Url) (size : Nat)
  | touch (call : Nat) (url : Url) (size : Nat)
  | ensureRoom (call : Nat) (now : Nat)
  | lockRoom (now : Nat)
  | syncTotal
  | readTable
  | adoptTotal (now : Nat)
  | nextVictim
  | forgetVictim
  | subtractVictim
  | put (call : Nat)
  | abandon (call : Nat)
  | touchCommit (call : Nat) (now : Nat)
  | touchApply (call : Nat)
  | settle (call : Nat)
  | forget (url : Url)
  | invalidate
  | invalidateEntry (url : Url)
  | deleteCommit (index : Nat)
  | clearCommit
  deriving DecidableEq, Repr

namespace LruCache

def syncIntervalMs : Nat := 10000
def syncWriteLimit : Nat := 16
def minReserveBytes : Nat := 16 * 1024 * 1024
def maxPendingUses : Nat := 256

/-- `RESERVE_SHARE` is an eighth. -/
def reserveFor (budget : Nat) : Nat := min budget (max minReserveBytes (budget / 8))

def sizeAt (table : Table) (url : Url) : Nat := (table.lookup url).elim 0 Row.size

def sumSizes (all : List LruEntry) : Nat := (all.map (fun e => e.2.size)).sum

def start (table : Table) (cached : List Url) : LruCache where
  table := table
  cached := cached
  lruBytes := none
  totalStale := true
  committedBytes := 0
  writesSinceSync := 0
  lastSyncAt := 0
  reservedBytes := 0
  metaGeneration := 0
  pendingUses := ∅
  flushDue := false
  metaWrites := []
  writing := none
  evictions := []
  pass := none
  writes := ∅
  deletions := []
  transactions := 0

def applyDelta (s : LruCache) (delta : Int) : LruCache :=
  { s with
    committedBytes := s.committedBytes + delta.toNat
    writesSinceSync := if 0 < delta then s.writesSinceSync + 1 else s.writesSinceSync
    lruBytes := s.lruBytes.map (fun total : Nat => ((total : Int) + delta).toNat) }

def fitsWithoutReading (s : LruCache) (budget now : Nat) : Bool :=
  match s.lruBytes with
  | none => false
  | some total =>
    !s.totalStale && decide (s.lastSyncAt ≤ now) && decide (now < s.lastSyncAt + syncIntervalMs) &&
      decide (s.writesSinceSync < syncWriteLimit) &&
      decide (total + s.reservedBytes ≤ budget - reserveFor budget)

def runFlush (s : LruCache) : LruCache :=
  if s.pendingUses.entries = [] then { s with flushDue := false }
  else { s with flushDue := false, metaWrites := s.metaWrites ++ [s.pendingUses], pendingUses := ∅ }

def flushUses (s : LruCache) : LruCache := if s.flushDue then s.runFlush else s

def noteUse (s : LruCache) (url : Url) (size : Option Nat) (now : Nat) : LruCache :=
  let use : PendingUse := ⟨size.or ((s.pendingUses.lookup url).bind PendingUse.size), now⟩
  let noted := { s with pendingUses := s.pendingUses.insert url use, flushDue := true }
  if maxPendingUses ≤ noted.pendingUses.entries.length then noted.flushUses else noted

def writeUse (table : Table) (use : Sigma (fun _ : Url => PendingUse)) : Table :=
  match table.lookup use.1 with
  | none => table
  | some previous => table.insert use.1 ⟨use.2.size.getD previous.size, use.2.usedAt⟩

def useDelta (table : Table) (use : Sigma (fun _ : Url => PendingUse)) : Int :=
  match table.lookup use.1 with
  | none => 0
  | some previous => (use.2.size.getD previous.size : Int) - previous.size

/-- The transaction of `writeUses`: the table it leaves and the delta it counts. -/
def writeUses : Table → List (Sigma (fun _ : Url => PendingUse)) → Table × Int
  | table, [] => (table, 0)
  | table, use :: rest =>
    let (after, delta) := writeUses (writeUse table use) rest
    (after, useDelta table use + delta)

def setPhase (s : LruCache) (call : Nat) (w : Write) (phase : WritePhase) : LruCache :=
  { s with writes := s.writes.insert call { w with phase := phase } }

def setPass (s : LruCache) (call : Nat) (phase : PassPhase) : LruCache :=
  { s with pass := some ⟨call, phase⟩ }

/-- `evictFromTable` returns: the lock is free and the call that held it goes on to put its body. -/
def endPass (s : LruCache) (call : Nat) : LruCache :=
  match s.writes.lookup call with
  | some w => if w.phase = .evicting then { s.setPhase call w .admitted with pass := none } else { s with pass := none }
  | none => { s with pass := none }

/-- The `finally` of `putBodyBounded` and `evictToFit`. -/
def finish (s : LruCache) (call : Nat) (w : Write) : LruCache :=
  { s with writes := s.writes.erase call, reservedBytes := s.reservedBytes - w.claim }

def sortByUse (all : List LruEntry) : List LruEntry :=
  all.insertionSort (fun a b => a.2.usedAt ≤ b.2.usedAt)

/-- What `syncTotal` and `evictFromTable` do with the rows that were read: nothing if the table was emptied under the
read, else the rows' sum is the running total, and the pass goes on if what is reserved does not fit beside it. -/
def adoptTotal (s : LruCache) (budget call generation mark : Nat) (all : List LruEntry) (now : Nat) : LruCache :=
  if generation = s.metaGeneration then
    let total := sumSizes all + (s.committedBytes - mark)
    let adopted := { s with lruBytes := some total, totalStale := false, writesSinceSync := 0, lastSyncAt := now }
    if total + s.reservedBytes ≤ budget then adopted.endPass call
    else adopted.setPass call (.evicting (sortByUse all) (total + s.reservedBytes : Nat) 0)
  else s.endPass call

abbrev commitUses (s : LruCache) (batch : Uses) : LruCache :=
  { s with
    table := (writeUses s.table batch.entries).1
    writing := some (s.transactions, (writeUses s.table batch.entries).2)
    transactions := s.transactions + 1 }

abbrev commitTouch (s : LruCache) (call : Nat) (w : Write) (now : Nat) : LruCache :=
  { s.setPhase call w (.touched s.transactions ((w.size : Int) - sizeAt s.table w.url)) with
    table := s.table.insert w.url ⟨w.size, now⟩
    transactions := s.transactions + 1 }

abbrev forgetEntry (s : LruCache) (call : Nat) (entry : LruEntry) (rest : List LruEntry) (projected : Int) (freed : Nat) :
    LruCache :=
  { s.setPass call (.forgot entry rest projected freed) with
    table := s.table.erase entry.1
    transactions := s.transactions + 1 }

def touchedFrom (txn : Nat) : WritePhase → Bool
  | .touched n _ => decide (txn ≤ n)
  | _ => true

/-- Every transaction that ran before number `txn` has had its `applyDelta`: the database reports the end of a transaction,
and the code awaiting it runs, before a later read has its result. -/
def appliedBefore (s : LruCache) (txn : Nat) : Bool :=
  s.writes.entries.all (fun call => touchedFrom txn call.2.phase) && s.writing.all (fun batch => decide (txn ≤ batch.1))

def step (budget : Nat) (s : LruCache) : LruEvent → Option LruCache
  | .noteUse url size now => some (s.noteUse url size now)
  | .flush => if s.flushDue then some s.runFlush else none
  | .usesCommit =>
    match s.metaWrites, s.writing with
    | batch :: _, none => some (s.commitUses batch)
    | _, _ => none
  | .usesApply =>
    match s.writing with
    | some (_, delta) =>
      let landed := { s.applyDelta delta with metaWrites := s.metaWrites.tail, writing := none }
      match s.pass with
      | some ⟨call, .flushing (batches + 1)⟩ => some (landed.setPass call (.flushing batches))
      | _ => some landed
    | none => none
  | .putBodyBounded call url size =>
    match s.writes.lookup call with
    | none =>
      some { s with
        writes := s.writes.insert call ⟨url, size, size, .checking⟩
        reservedBytes := s.reservedBytes + size }
    | some _ => none
  | .touch call url size =>
    match s.writes.lookup call with
    | none => some { s with writes := s.writes.insert call ⟨url, size, 0, .stored⟩ }
    | some _ => none
  | .ensureRoom call now =>
    match s.writes.lookup call with
    | some w =>
      if w.phase = .checking then
        if s.fitsWithoutReading budget now then some (s.setPhase call w .admitted)
        else some { s.setPhase call w .queued with evictions := s.evictions ++ [call] }
      else none
    | none => none
  | .lockRoom now =>
    -- the pass this call queued behind may have freed room, so the total is asked once more
    match s.evictions, s.pass with
    | call :: waiting, none =>
      match s.writes.lookup call with
      | some w =>
        if w.phase = .queued then
          if s.fitsWithoutReading budget now then some { s.setPhase call w .admitted with evictions := waiting }
          else
            let flushed := { s.setPhase call w .evicting with evictions := waiting }.flushUses
            some (flushed.setPass call (.flushing flushed.metaWrites.length))
        else none
      | none => none
    | _, _ => none
  | .syncTotal =>
    match s.pass with
    | some ⟨call, .flushing 0⟩ => some (s.setPass call (.syncing s.metaGeneration s.committedBytes))
    | _ => none
  | .readTable =>
    match s.pass with
    | some ⟨call, .syncing generation mark⟩ =>
      some (s.setPass call (.read s.transactions generation mark s.table.entries))
    | _ => none
  | .adoptTotal now =>
    match s.pass with
    | some ⟨call, .read txn generation mark all⟩ =>
      if s.appliedBefore txn then some (s.adoptTotal budget call generation mark all now) else none
    | _ => none
  | .nextVictim =>
    match s.pass with
    | some ⟨call, .evicting [] _ _⟩ => some (s.endPass call)
    | some ⟨call, .evicting (entry :: rest) projected freed⟩ =>
      if projected ≤ budget then some (s.endPass call)
      else
        some { s.setPass call (.forgetting entry rest projected freed) with
          cached := s.cached.filter (· ≠ entry.1)
          pendingUses := s.pendingUses.erase entry.1 }
    | _ => none
  | .forgetVictim =>
    match s.pass with
    | some ⟨call, .forgetting entry rest projected freed⟩ => some (s.forgetEntry call entry rest projected freed)
    | _ => none
  | .subtractVictim =>
    match s.pass with
    | some ⟨call, .forgot entry rest projected freed⟩ =>
      some ((s.applyDelta (-(entry.2.size : Int))).setPass call
        (.evicting rest (projected - entry.2.size) (freed + entry.2.size)))
    | _ => none
  | .put call =>
    match s.writes.lookup call with
    | some w =>
      if w.phase = .admitted then some { s.setPhase call w .stored with cached := w.url :: s.cached.filter (· ≠ w.url) }
      else none
    | none => none
  | .abandon call =>
    -- the epoch has moved on, or the call was `evictToFit`
    match s.writes.lookup call with
    | some w => if w.phase = .admitted then some (s.finish call w) else none
    | none => none
  | .touchCommit call now =>
    match s.writes.lookup call with
    | some w =>
      if w.phase = .stored then some (s.commitTouch call w now) else none
    | none => none
  | .touchApply call =>
    match s.writes.lookup call with
    | some w =>
      match w.phase with
      | .touched _ delta => some ((s.applyDelta delta).setPhase call w .applied)
      | _ => none
    | none => none
  | .settle call =>
    match s.writes.lookup call with
    | some w => if w.phase = .applied then some (s.finish call w) else none
    | none => none
  | .forget url =>
    some { s with totalStale := true, pendingUses := s.pendingUses.erase url, deletions := url :: s.deletions }
  | .invalidate =>
    some { s with
      metaGeneration := s.metaGeneration + 1
      pendingUses := ∅
      lruBytes := some 0
      totalStale := true }
  | .invalidateEntry url =>
    if 0 < s.metaGeneration then
      some { s with
        cached := s.cached.filter (· ≠ url)
        pendingUses := s.pendingUses.erase url
        deletions := url :: s.deletions }
    else none
  | .deleteCommit index =>
    match s.deletions[index]? with
    | some url =>
      some { s with
        table := s.table.erase url
        deletions := s.deletions.eraseIdx index
        transactions := s.transactions + 1 }
    | none => none
  | .clearCommit =>
    if 0 < s.metaGeneration then
      some { s with table := ∅, cached := [], transactions := s.transactions + 1 }
    else none

end LruCache
end YuriRtc
