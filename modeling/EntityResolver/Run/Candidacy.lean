import EntityResolver.Run.Basic

/-!
Candidacies: which of the waiting targets a getter would serve by one call, and with which fields.
-/

set_option autoImplicit false

namespace EntityResolver

/-- What a getter offers to do in a round. -/
structure Candidacy where
  /-- Positions of the targets in their pool, ascending. -/
  chosen : List Nat
  ids : List String
  selector : Selector
  /-- How many field values the call would bring. -/
  score : Nat

namespace Candidacy

/-- The positions of the targets that `admits` admits, up to `limit` of them. A limit of none still
lets one through. -/
def choose (admits : Target → Bool) (limit : Option Nat) (position : Nat) :
    List Target → List (Nat × Target)
  | [] => []
  | target :: rest =>
      if admits target then
        match limit with
        | none => (position, target) :: choose admits none (position + 1) rest
        | some count =>
            if count ≤ 1 then [(position, target)]
            else (position, target) :: choose admits (some (count - 1)) (position + 1) rest
      else choose admits limit (position + 1) rest

/-- Texts without repetitions, each at its first place. -/
def distinct : List String → List String
  | [] => []
  | text :: rest => text :: (distinct rest).filter fun other => other != text

/-- Serves the first target with an unresolved field that is supplied. -/
def ofSingle (supplied : List String) (pool : List Target) : Option Candidacy :=
  match choose (fun target => !(target.openAmong supplied).isEmpty) (some 1) 0 pool with
  | [] => none
  | (position, target) :: _ =>
      let names := target.openAmong supplied
      some ⟨[position], [target.id], target.selector.project names, names.length⟩

/-- The targets that a batch takes: the first one with an unresolved field that is supplied, and
those like it. -/
def batchOf (supplied : List String) (limit : Option Nat) (pool : List Target) :
    List (Nat × Target) :=
  match pool.find? fun target => !(target.openAmong supplied).isEmpty with
  | none => []
  | some first =>
      choose (fun target => !(target.openAmong supplied).isEmpty && target.isAlike first) limit 0
        pool

def ofBatch (supplied : List String) (limit : Option Nat) (repeatIds : Bool)
    (pool : List Target) : Option Candidacy :=
  let batch := batchOf supplied limit pool
  match batch with
  | [] => none
  | (_, first) :: _ =>
      let names := first.openAmong supplied
      let ids := batch.map fun (_, target) => target.id
      some
        { chosen := batch.map Prod.fst
          ids := if repeatIds then ids else distinct ids
          selector := first.selector.project names
          score := batch.length * names.length }

end Candidacy

/-- The candidacy of a getter, if it supplies an unresolved field of some target. -/
def Getter.candidacy? (getter : Getter) (pool : List Target) : Option Candidacy :=
  match getter with
  | .single _ => Candidacy.ofSingle getter.supplied pool
  | .batch method => Candidacy.ofBatch getter.supplied method.limit false pool
  | .table method =>
      Candidacy.ofBatch getter.supplied (if method.isBatch then none else some 1) true pool

/-- The candidacy of the highest score, with its getter; of several the first. -/
def bestCandidacy? (pool : List Target) : List Getter → Option (Getter × Candidacy)
  | [] => none
  | getter :: rest =>
      match getter.candidacy? pool, bestCandidacy? pool rest with
      | none, best => best
      | some candidacy, none => some (getter, candidacy)
      | some candidacy, some (other, better) =>
          if candidacy.score < better.score then some (other, better) else some (getter, candidacy)

end EntityResolver
