import AbiBridge.Toml.Fault
import AbiBridge.Value.Basic

/-!
Documents under construction.

A `Document` is the table that was read so far, with the place that the following assignments are
relative to, and what may no longer be opened: a `frozen` key is one that was given a list or a
table as its value, and nothing may be added to it or below it; an `opened` key is one that has a
table of its own, which no second header and no dotted key may open again. The keys that dotted
assignments run through count as opened from the next header on.
-/

namespace AbiBridge

namespace Table

open Toml (Fault)

/-- Applies `f` to the table at the end of a path, making tables where there are none. A list on
the way stands for its last item, if `throughLists`. -/
def modifyAt (throughLists : Bool) (f : Table → Except Fault Table) :
    (path : Key) → Table → Except Fault Table
  | [], t => f t
  | k :: ks, t =>
      match List.lookup k t with
      | none => do return t.put k (.table (← modifyAt throughLists f ks []))
      | some (.table inner) => do return t.put k (.table (← modifyAt throughLists f ks inner))
      | some (.list items) =>
          match throughLists, items.getLast? with
          | true, some (.table inner) => do
              let inner ← modifyAt throughLists f ks inner
              return t.put k (.list (items.dropLast ++ [.table inner]))
          | _, _ => throw .overwritten
      | some _ => throw .overwritten

/-- Puts a value under a new name; `taken` is the fault of one that is not new. -/
def assignNew (taken : Fault) (name : String) (value : Value) (t : Table) : Except Fault Table :=
  if (List.lookup name t).isSome then .error taken else .ok (t.put name value)

/-- Adds an empty table to the list under a name, or puts a list of one there. -/
def appendTable (name : String) (t : Table) : Except Fault Table :=
  match List.lookup name t with
  | none => .ok (t.put name (.list [.table []]))
  | some (.list items) => .ok (t.put name (.list (items ++ [.table []])))
  | some _ => .error .overwritten

end Table

namespace Toml

/-- Whether a key or one that it lies in is among the given ones. -/
def liesIn (keys : List Key) (key : Key) : Bool := keys.any fun k => k.isPrefixOf key

/-- A document under construction. -/
structure Document where
  root : Table := []
  /-- The key of the last header. -/
  header : Key := []
  /-- The keys to which nothing may be added. -/
  frozen : List Key := []
  /-- The keys that no header may open. -/
  opened : List Key := []
  /-- The keys that will be opened from the next header on. -/
  pending : List Key := []

namespace Document

/-- The document as it stands before a header. -/
def settle (d : Document) : Document := { d with opened := d.opened ++ d.pending, pending := [] }

/-- Opens the table of a header. -/
def openTable (d : Document) (key : Key) : Except Fault Document := do
  if d.opened.contains key || liesIn d.frozen key then throw (.declaredTwice key)
  let root ← d.root.modifyAt true pure key
  return { d with root, header := key, opened := key :: d.opened }

/-- Opens a new item in the list of a header. What lay below the item before may be opened again. -/
def openItem (d : Document) (key : Key) : Except Fault Document := do
  if liesIn d.frozen key then throw (.immutable key)
  let root ← d.root.modifyAt true (Table.appendTable (key.getLastD "")) key.dropLast
  return { d with
    root, header := key
    frozen := d.frozen.filter fun k => !key.isPrefixOf k
    opened := key :: d.opened.filter fun k => !key.isPrefixOf k }

/-- The keys that a dotted key runs through. -/
def through (header key : Key) : List Key :=
  (List.range key.dropLast.length).map fun i => header ++ key.take (i + 1)

/-- Assigns a value to a key that is relative to the last header. -/
def assign (d : Document) (key : Key) (value : Value) : Except Fault Document := do
  let between := through d.header key
  if let some k := between.find? d.opened.contains then throw (.redefined k)
  let place := d.header ++ key.dropLast
  if liesIn d.frozen place then throw (.immutable place)
  let put := Table.assignNew .overwritten (key.getLastD "") value
  let root ← d.root.modifyAt true put place
  return { d with
    root
    frozen := if value.isCompound then (d.header ++ key) :: d.frozen else d.frozen
    pending := d.pending ++ between }

end Document

/-- A table on one line under construction, with the keys to which nothing may be added. -/
structure InlineTable where
  entries : Table := []
  frozen : List Key := []

namespace InlineTable

/-- Assigns a value to a key. -/
def assign (t : InlineTable) (key : Key) (value : Value) : Except Fault InlineTable := do
  if liesIn t.frozen key then throw (.immutable key)
  let name := key.getLastD ""
  let put := Table.assignNew (.duplicateName name) name value
  let entries ← t.entries.modifyAt false put key.dropLast
  return ⟨entries, if value.isCompound then key :: t.frozen else t.frozen⟩

end InlineTable

end Toml

end AbiBridge
