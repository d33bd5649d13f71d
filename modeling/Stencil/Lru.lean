import Std.Data.TreeMap

/-! A cache of bounded size that gives up the entry used least recently. Every use of an entry is
stamped with the time on a clock that goes on with every call, and a second map finds the oldest
stamp. -/

namespace Stencil

structure Lru (κ ν : Type) [Ord κ] where
  entries : Std.TreeMap κ (ν × Nat)
  order : Std.TreeMap Nat κ
  clock : Nat
  capacity : Nat
  hits : Nat
  misses : Nat

namespace Lru

variable {κ ν : Type} [Ord κ]

def empty (capacity : Nat) : Lru κ ν := ⟨∅, ∅, 0, max capacity 1, 0, 0⟩

def size (c : Lru κ ν) : Nat := c.entries.size

def isEmpty (c : Lru κ ν) : Bool := c.size == 0

def contains (c : Lru κ ν) (k : κ) : Bool := c.entries.contains k

def restamp {α : Type} (order : Std.TreeMap Nat α) (last now : Nat) : Std.TreeMap Nat α :=
  match order[last]? with
  | some k => (order.erase last).insert now k
  | none => order

def get? (c : Lru κ ν) (k : κ) : Option ν × Lru κ ν :=
  let now := c.clock + 1
  match c.entries[k]? with
  | some (v, last) =>
    (some v, { c with
      entries := c.entries.insert k (v, now)
      order := restamp c.order last now
      clock := now
      hits := c.hits + 1 })
  | none => (none, { c with clock := now, misses := c.misses + 1 })

/-- Gives up the oldest entries until the others fit or the order is used up. The number of keys in
the order bounds the rounds. -/
def evict (capacity : Nat) : (rounds : Nat) → Std.TreeMap κ (ν × Nat) → Std.TreeMap Nat κ →
    Std.TreeMap κ (ν × Nat) × Std.TreeMap Nat κ
  | 0, entries, order => (entries, order)
  | rounds + 1, entries, order =>
    if capacity < entries.size then
      match order.minKey? with
      | some time =>
        let entries := match order[time]? with
          | some k => entries.erase k
          | none => entries
        evict capacity rounds entries (order.erase time)
      | none => (entries, order)
    else (entries, order)

def put (c : Lru κ ν) (k : κ) (v : ν) : Lru κ ν :=
  let now := c.clock + 1
  match c.entries[k]? with
  | some (_, last) =>
    { c with
      entries := c.entries.insert k (v, now)
      order := restamp c.order last now
      clock := now }
  | none =>
    let order := c.order.insert now k
    let (entries, order) := evict c.capacity order.size (c.entries.insert k (v, now)) order
    { c with entries, order, clock := now }

def summary (c : Lru κ ν) : String :=
  let size := c.size
  s!"LruCache \x7b len: {size}, capacity: {c.capacity}, hits: {c.hits}, misses: {c.misses} \x7d"

end Lru

end Stencil
