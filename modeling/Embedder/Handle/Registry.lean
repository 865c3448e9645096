import Embedder.Handle
import Embedder.Table

namespace Embedder

/-!
# Handles under names

Unique handles in named slots, objects that share one handle between counted owners, and a log of
everything that was deleted. An owner is a shared slot or a counted reference; the object's handle
is dropped with the last of them.

* `Registry.Step`, `Registry.Answer`: what can be asked, and what is answered.
* `Registry.step`: one request.
* `Registry.clear`: dropping all that is left.
-/

/-- A handle with counted owners. -/
structure SharedObject where
  handle : Handle
  owners : Nat
  deriving DecidableEq, Repr

/-- Handles under names, and the log of what was deleted, oldest first. -/
structure Registry where
  unique : Table String Handle
  objects : Pool SharedObject
  shared : Table String Nat
  references : Table String Nat
  deleted : List Nat

namespace Registry

/-- A request to a registry. -/
inductive Step where
  /-- A handle that owns a value. -/
  | adopt (slot : String) (value : Nat)
  /-- A handle that owns nothing. -/
  | null (slot : String)
  /-- Let a handle adopt another value. -/
  | reset (slot : String) (value : Nat)
  /-- Let a handle give its value up. -/
  | release (slot : String)
  /-- Look at a handle. -/
  | get (slot : String)
  /-- The length of the deletion log, as a handle's deleter sees it. -/
  | logLength (slot : String)
  /-- Move a handle to another slot. -/
  | move (source target : String)
  /-- Drop a handle. -/
  | drop (slot : String)
  /-- Share a handle: it moves into an object with one owner. -/
  | share (slot owner : String)
  /-- A second owner of the same object. -/
  | clone (owner other : String)
  /-- A counted reference to an owner's object. -/
  | reference (owner ref : String)
  /-- Drop a counted reference. -/
  | dropReference (ref : String)
  /-- Drop an owner. -/
  | dropShared (owner : String)
  /-- The number of owners of an owner's object. -/
  | count (owner : String)
  /-- Whether two owners share one object. -/
  | same (owner other : String)
  /-- Look at the handle that an owner shares. -/
  | sharedGet (owner : String)
  deriving Repr

/-- What a registry answers. -/
inductive Answer where
  | done
  | flag (value : Bool)
  | number (n : Nat)
  | value (raw : Nat)
  | held (handle : Handle)
  | sharedHeld (handle : Handle)
  | absent
  deriving DecidableEq, Repr

/-- The registry without handles. -/
def empty : Registry :=
  ⟨Table.empty, Pool.empty, Table.empty, Table.empty, []⟩

/-- Log what a handle hands to its deleter. -/
def log (r : Registry) (value : Option Nat) : Registry :=
  { r with deleted := r.deleted ++ value.toList }

/-- Drop a unique handle. -/
def dropHandle (r : Registry) : Option Handle → Registry
  | some h => r.log h.deleted
  | none => r

/-- Take one owner away from an object; the last one drops the object's handle. -/
def dropOwner (r : Registry) : Option Nat → Registry
  | none => r
  | some id =>
    match r.objects.get? id with
    | none => r
    | some object =>
      if object.owners ≤ 1 then { r with objects := r.objects.erase id }.log object.handle.deleted
      else
        { r with objects := r.objects.modify id fun o => { o with owners := o.owners - 1 } }

/-- Give an object one more owner. -/
def addOwner (r : Registry) (id : Nat) : Registry :=
  { r with objects := r.objects.modify id fun o => { o with owners := o.owners + 1 } }

/-- Put a handle into a slot; what was there is dropped. -/
def putUnique (r : Registry) (slot : String) (h : Handle) : Registry :=
  { r with unique := r.unique.set slot h }.dropHandle (r.unique.get? slot)

/-- Put an owner of an object into a shared slot; what was there is dropped. -/
def putShared (r : Registry) (slot : String) (id : Nat) : Registry :=
  { r with shared := r.shared.set slot id }.dropOwner (r.shared.get? slot)

/-- Put a counted reference into a slot; what was there is dropped. -/
def putReference (r : Registry) (slot : String) (id : Nat) : Registry :=
  { r with references := r.references.set slot id }.dropOwner (r.references.get? slot)

/-- The number of owners of an object. -/
def owners (r : Registry) (id : Nat) : Nat :=
  ((r.objects.get? id).map SharedObject.owners).getD 0

/-- One request. -/
def step (r : Registry) : Step → Answer × Registry
  | .adopt slot value => (.done, r.putUnique slot ⟨value⟩)
  | .null slot => (.done, r.putUnique slot .null)
  | .reset slot value =>
    match r.unique.get? slot with
    | none => (.absent, r)
    | some h =>
      let (h, old) := h.reset value
      (.done, { r with unique := r.unique.set slot h }.log old)
  | .release slot =>
    match r.unique.get? slot with
    | none => (.absent, r)
    | some h =>
      let (h, value) := h.release
      (.value value, { r with unique := r.unique.set slot h })
  | .get slot =>
    match r.unique.get? slot with
    | none => (.absent, r)
    | some h => (.held h, r)
  | .logLength slot =>
    match r.unique.get? slot with
    | none => (.absent, r)
    | some _ => (.number r.deleted.length, r)
  | .move source target =>
    match r.unique.get? source with
    | none => (.absent, r)
    | some h => (.done, { r with unique := r.unique.erase source }.putUnique target h)
  | .drop slot =>
    let old := r.unique.get? slot
    (.flag old.isSome, { r with unique := r.unique.erase slot }.dropHandle old)
  | .share slot owner =>
    match r.unique.get? slot with
    | none => (.absent, r)
    | some h =>
      let (objects, id) := r.objects.insert ⟨h, 1⟩
      (.done, { r with unique := r.unique.erase slot, objects }.putShared owner id)
  | .clone owner other =>
    match r.shared.get? owner with
    | none => (.absent, r)
    | some id => (.done, (r.addOwner id).putShared other id)
  | .reference owner ref =>
    match r.shared.get? owner with
    | none => (.absent, r)
    | some id => (.done, (r.addOwner id).putReference ref id)
  | .dropReference ref =>
    let old := r.references.get? ref
    (.flag old.isSome, { r with references := r.references.erase ref }.dropOwner old)
  | .dropShared owner =>
    let old := r.shared.get? owner
    (.flag old.isSome, { r with shared := r.shared.erase owner }.dropOwner old)
  | .count owner =>
    match r.shared.get? owner with
    | none => (.absent, r)
    | some id => (.number (r.owners id), r)
  | .same owner other =>
    match r.shared.get? owner, r.shared.get? other with
    | some id, some id' => (.flag (id = id'), r)
    | _, _ => (.absent, r)
  | .sharedGet owner =>
    match (r.shared.get? owner).bind r.objects.get? with
    | none => (.absent, r)
    | some object => (.sharedHeld object.handle, r)

/-- Drop every handle, owner and reference that is left. -/
def clear (r : Registry) : Registry :=
  let r := r.unique.entries.foldl (fun r e => (r.step (.drop e.1)).2) r
  let r := r.shared.entries.foldl (fun r e => (r.step (.dropShared e.1)).2) r
  r.references.entries.foldl (fun r e => (r.step (.dropReference e.1)).2) r

end Registry

end Embedder
