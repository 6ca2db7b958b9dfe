import Depot.Cache.Ask
import Depot.Stock.Row
import Depot.Keyed

/-!
Contract: lists of rows kept by a client, and how they stay true to the source.

Every change draws a stamp from one counter. A counter of 64 bits would begin
again after 2^64 draws, which no run comes to, so stamps are natural numbers. An
entry remembers the stamp of the last local write and the stamp of the refresh
whose rows it holds. A refresh has two moments: `begin` notes the entry's write
stamp and draws a stamp of its own, `land` takes the source's reply. Rows are
dropped when a local write came in between, when a refresh that began later has
already landed, or when the entry was removed in between. So a local write is
never undone by a refresh that was on its way, and overlapping refreshes settle
on the newest rows.

Each operation is one step on a value; between `begin` and `land` any other
operation may happen.

Owns: entries, stamps, the operations and the log of changes.
Does not own: calls that take several steps (`Depot.Edit.Call`).
-/

namespace Depot

/-- What happened to a list. -/
inductive Change where
  /-- A local write. -/
  | updated
  /-- Rows arrived from the source. -/
  | refreshed
  /-- The list was marked stale. -/
  | invalidated
  | removed
deriving DecidableEq, Repr

def Change.word : Change → String
  | .updated => "updated"
  | .refreshed => "refreshed"
  | .invalidated => "invalidated"
  | .removed => "removed"

/-- A change of the list under a key. -/
structure Event where
  key : ListKey
  change : Change
deriving DecidableEq

/-- A list that is kept. -/
structure Entry (ρ : Type) where
  rows : List ρ
  /-- The stamp of the last local write, zero when only refreshes have filled
  the entry. -/
  written : Nat
  /-- The stamp of the refresh whose rows are held, zero when there is none. -/
  fetched : Nat
  stale : Bool

/-- The lists that a client keeps. -/
structure Cache (ρ : Type) where
  entries : Keyed ListKey (Entry ρ)
  /-- The stamp that is drawn next. -/
  nextStamp : Nat
  /-- Every change so far, the oldest first. -/
  events : List Event

/-- A refresh that has begun and not landed. -/
structure Refresh where
  key : ListKey
  /-- The write stamp of the entry when the refresh began, if there was one. -/
  writtenAt : Option Nat
  /-- The refresh's own stamp. -/
  ticket : Nat
deriving DecidableEq

namespace Cache

variable {ρ : Type}

/-- Nothing kept yet. Stamps start at one. -/
def empty : Cache ρ := ⟨Keyed.empty, 1, []⟩

def get? (cache : Cache ρ) (key : ListKey) : Option (List ρ) :=
  (cache.entries.get? key).map Entry.rows

def isStale? (cache : Cache ρ) (key : ListKey) : Option Bool :=
  (cache.entries.get? key).map Entry.stale

def keys (cache : Cache ρ) : List ListKey :=
  cache.entries.keys

def writtenStamp? (cache : Cache ρ) (key : ListKey) : Option Nat :=
  (cache.entries.get? key).map Entry.written

/-- The cache with one more change in its log. -/
def publish (cache : Cache ρ) (key : ListKey) (change : Change) : Cache ρ :=
  { cache with events := cache.events ++ [⟨key, change⟩] }

def putEntry (cache : Cache ρ) (key : ListKey) (entry : Entry ρ) : Cache ρ :=
  { cache with entries := cache.entries.put key entry }

def drawn (cache : Cache ρ) : Cache ρ :=
  { cache with nextStamp := cache.nextStamp + 1 }

/-- Put a list under a key, whatever was there. -/
def set (cache : Cache ρ) (key : ListKey) (rows : List ρ) : Cache ρ :=
  (cache.drawn.putEntry key ⟨rows, cache.nextStamp, 0, false⟩).publish key .updated

/-- Change the list under a key and return the one before. Without a list under
the key nothing happens. -/
def update (cache : Cache ρ) (key : ListKey) (change : List ρ → List ρ) :
    Cache ρ × Option (List ρ) :=
  match cache.entries.get? key with
  | none => (cache, none)
  | some entry =>
      let changed := { entry with rows := change entry.rows, written := cache.nextStamp }
      ((cache.drawn.putEntry key changed).publish key .updated, some entry.rows)

def begin (cache : Cache ρ) (key : ListKey) : Cache ρ × Refresh :=
  (cache.drawn, ⟨key, cache.writtenStamp? key, cache.nextStamp⟩)

/-- Mark the entry of a failed refresh stale, unless it was written since the
refresh began or holds the rows of a later one. -/
def markFailed (cache : Cache ρ) (refresh : Refresh) : Cache ρ :=
  match cache.entries.get? refresh.key with
  | none => cache
  | some entry =>
      if some entry.written = refresh.writtenAt ∧ entry.fetched ≤ refresh.ticket then
        cache.putEntry refresh.key { entry with stale := true }
      else cache

def store (cache : Cache ρ) (refresh : Refresh) (rows : List ρ) : Cache ρ :=
  (cache.putEntry refresh.key
    ⟨rows, refresh.writtenAt.getD 0, refresh.ticket, false⟩).publish refresh.key .refreshed

/-- Land a refresh with the source's reply. The result is what the list holds
then, or the rows themselves when the list was removed meanwhile. -/
def land (cache : Cache ρ) (refresh : Refresh) (reply : Except SourceFault (List ρ)) :
    Cache ρ × Except SourceFault (List ρ) :=
  match reply with
  | .error fault => (cache.markFailed refresh, .error fault)
  | .ok rows =>
      match cache.entries.get? refresh.key with
      | some entry =>
          if entry.written ≠ refresh.writtenAt.getD 0 then (cache, .ok entry.rows)
          else if refresh.ticket < entry.fetched then (cache, .ok entry.rows)
          else (cache.store refresh rows, .ok rows)
      | none =>
          if refresh.writtenAt.isSome then (cache, .ok rows)
          else (cache.store refresh rows, .ok rows)

/-- The rows under a key when they are there and not stale. -/
def fresh? (cache : Cache ρ) (key : ListKey) : Option (List ρ) :=
  ((cache.entries.get? key).filter fun entry => !entry.stale).map Entry.rows

def markStale (cache : Cache ρ) (key : ListKey) : Cache ρ :=
  match cache.entries.get? key with
  | none => cache
  | some entry => (cache.putEntry key { entry with stale := true }).publish key .invalidated

/-- Mark the list under a key stale and begin to refresh it. -/
def beginInvalidate (cache : Cache ρ) (key : ListKey) : Cache ρ × Refresh :=
  (cache.markStale key).begin key

def keysIn (cache : Cache ρ) (scope : Scope) : List ListKey :=
  cache.keys.filter fun key => key.isIn scope

/-- Drop the list under a key and return it. -/
def remove (cache : Cache ρ) (key : ListKey) : Cache ρ × Option (List ρ) :=
  match cache.entries.get? key with
  | none => (cache, none)
  | some entry =>
      ({ cache with entries := cache.entries.erase key }.publish key .removed,
        some entry.rows)

def clear (cache : Cache ρ) : Cache ρ :=
  { cache with
    entries := Keyed.empty
    events := cache.events ++ cache.keys.map fun key => ⟨key, .removed⟩ }

end Cache

end Depot
