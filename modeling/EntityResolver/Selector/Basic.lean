/-!
Field selectors: which fields of an entity are wanted, and which fields of the entities they refer
to.

A selector is an ordered forest of named entries. An entry either carries the selector for the
referenced entities or says that it is the very selector it stands in; such an entry is recursive
and makes the forest stand for an infinite one. A name occurs once on a level; every operation
keeps this.
-/

set_option autoImplicit false

namespace EntityResolver

/-- An ordered forest of field names. -/
inductive Selector where
  | empty
  /-- A field with the selector of what it refers to, before other fields. -/
  | nested (name : String) (sub rest : Selector)
  /-- A field whose selector is the selector around it, before other fields. -/
  | recursive (name : String) (rest : Selector)
  deriving DecidableEq, Repr, Inhabited

namespace Selector

inductive Entry where
  | nested (sub : Selector)
  | recursive
  deriving DecidableEq, Repr

def names : Selector → List String
  | .empty => []
  | .nested name _ rest => name :: names rest
  | .recursive name rest => name :: names rest

def size (selector : Selector) : Nat :=
  selector.names.length

def isEmpty : Selector → Bool
  | .empty => true
  | _ => false

def entries : Selector → List (String × Entry)
  | .empty => []
  | .nested name sub rest => (name, .nested sub) :: entries rest
  | .recursive name rest => (name, .recursive) :: entries rest

def entry? : Selector → String → Option Entry
  | .empty, _ => none
  | .nested name sub rest, wanted =>
      if name = wanted then some (.nested sub) else entry? rest wanted
  | .recursive name rest, wanted => if name = wanted then some .recursive else entry? rest wanted

def contains (selector : Selector) (name : String) : Bool :=
  (selector.entry? name).isSome

def isRecursive (selector : Selector) (name : String) : Bool :=
  selector.entry? name == some .recursive

def Entry.cons (name : String) (rest : Selector) : Entry → Selector
  | .nested sub => .nested name sub rest
  | .recursive => .recursive name rest

/-- Stores an entry: in the place of the name if it has one, at the end otherwise. -/
def insertEntry (name : String) (entry : Entry) : Selector → Selector
  | .empty => entry.cons name .empty
  | .nested other sub rest =>
      if other = name then entry.cons name rest else .nested other sub (insertEntry name entry rest)
  | .recursive other rest =>
      if other = name then entry.cons name rest else .recursive other (insertEntry name entry rest)

def insert (selector : Selector) (name : String) (sub : Selector) : Selector :=
  selector.insertEntry name (.nested sub)

def insertRecursive (selector : Selector) (name : String) : Selector :=
  selector.insertEntry name .recursive

def single (name : String) (sub : Selector) : Selector :=
  .nested name sub .empty

def erase (name : String) : Selector → Selector
  | .empty => .empty
  | .nested other sub rest => if other = name then rest else .nested other sub (erase name rest)
  | .recursive other rest => if other = name then rest else .recursive other (erase name rest)

/-- The selector of what a field refers to, for one field taken out of its selector. -/
def Entry.detached : Entry → Selector
  | .nested sub => sub
  | .recursive => .empty

/-- The selector of what a field refers to, for an entry inside `around`. -/
def Entry.within (around : Selector) : Entry → Selector
  | .nested sub => sub
  | .recursive => around

/-- The selector of what a field refers to, recursion followed. -/
def subselector? (selector : Selector) (name : String) : Option Selector :=
  (selector.entry? name).map (Entry.within selector)

/-- The fields with their subselectors, recursion followed. -/
def resolved (selector : Selector) : List (String × Selector) :=
  selector.entries.map fun (name, entry) => (name, entry.within selector)

/-- Makes recursive entries refer to `target`. -/
def retarget : Selector → Selector → Selector
  | .empty, _ => .empty
  | .nested name sub rest, target => .nested name sub (rest.retarget target)
  | .recursive name rest, target => .nested name target (rest.retarget target)

/-- The entries with the given names, in the order of the names. -/
def pick (selector : Selector) (names : List String) : Selector :=
  names.foldl (fun picked name =>
    match selector.entry? name with
    | some entry => picked.insertEntry name entry
    | none => picked) .empty

/-- The part of a selector with the given names. What a field is selected with stays the same: if
fields are left out, recursive entries refer to the whole selector from then on. -/
def project (selector : Selector) (names : List String) : Selector :=
  let picked := selector.pick names
  if picked.size = selector.size then picked else picked.retarget selector

/-- Drops recursive entries on every level. -/
def unrolled : Selector → Selector
  | .empty => .empty
  | .nested name sub rest => .nested name sub.unrolled rest.unrolled
  | .recursive _ rest => rest.unrolled

/-- The union of two selectors: the entries of the first in their order, then those that only the
second has. A field of both is selected with the union, and stays recursive if it is so in the
first. -/
def merge : Selector → Selector → Selector
  | base, .empty => base
  | base, .nested name sub rest =>
      let widened :=
        match base.entry? name with
        | some (.nested mine) => base.insert name (merge mine sub)
        | some .recursive => base
        | none => base.insert name sub
      merge widened rest
  | base, .recursive name rest =>
      merge (if base.contains name then base else base.insertRecursive name) rest

/-- Every entry of the first selector is in the second one, with equal subselectors. -/
def covered : Selector → Selector → Bool
  | .empty, _ => true
  | .nested name sub rest, other =>
      (match other.entry? name with
        | some (.nested theirs) => sub.size == theirs.size && covered sub theirs
        | _ => false) && covered rest other
  | .recursive name rest, other => other.isRecursive name && covered rest other

/-- Equality up to the order of fields on every level. -/
def same (first second : Selector) : Bool :=
  first.size == second.size && covered first second

theorem mem_entries_of_found {selector : Selector} {name : String} {entry : Entry}
    (found : selector.entry? name = some entry) : (name, entry) ∈ selector.entries := by
  induction selector with
  | empty => simp [Selector.entry?] at found
  | nested other sub rest _ inductionHypothesis =>
      simp only [Selector.entry?] at found
      split at found
      · cases found
        simp_all [entries]
      · simp [entries, inductionHypothesis found]
  | recursive other rest inductionHypothesis =>
      simp only [Selector.entry?] at found
      split at found
      · cases found
        simp_all [entries]
      · simp [entries, inductionHypothesis found]

theorem mem_resolved_of_isRecursive {selector : Selector} {name : String}
    (recursive : selector.isRecursive name) : (name, selector) ∈ selector.resolved := by
  have entry : selector.entry? name = some .recursive := by simpa [isRecursive] using recursive
  exact List.mem_map.mpr ⟨(name, .recursive), mem_entries_of_found entry, rfl⟩

/-- On every level no name occurs twice. -/
def Distinct : Selector → Prop
  | .empty => True
  | .nested name sub rest => name ∉ rest.names ∧ sub.Distinct ∧ rest.Distinct
  | .recursive name rest => name ∉ rest.names ∧ rest.Distinct

end Selector

end EntityResolver
