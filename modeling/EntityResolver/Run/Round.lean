import EntityResolver.Run.Fetch
import EntityResolver.Run.Prerequisite

/-!
Rounds. A run first satisfies its prerequisites, and then repeats rounds until no target is left:

1. take the first pool, and ask each getter of its class for a candidacy;
2. execute the best one, and resolve the fields that it brings;
3. fill the targets spawned meanwhile into the pools, and resolve from the cache what it holds.
-/

set_option autoImplicit false

namespace EntityResolver.Run

/-- Gives up a target whose entity does not exist. Only a weak one may be given up; its entity loses
its id. -/
def giveUp (target : Target) : Run Target := do
  if target.isWeak then
    update (.lost target) target.entity fun record => { record with id := none }
    return { target with unresolved := [] }
  else throw (.entityNotFound (← className target.cls) target.id)

/-- Resolves those of the named fields that a target lacks. All must have values. -/
def resolveFetched (path : String) (values : FieldValues) : List String → Target → Run Target
  | [], target => pure target
  | name :: rest, target => do
      if target.unresolved.contains name then
        match values.get? name with
        | some value => resolveFetched path values rest (← resolveAndCache target name value)
        | none => throw (.missingValue path name target.id)
      else resolveFetched path values rest target

/-- Resolves a target by what a call said about its entity. Silence means that it does not exist. -/
def settle (path : String) (names : List String) (results : FetchResults) (target : Target) :
    Run Target :=
  match results.get? target.id with
  | some (.found values) => resolveFetched path values names target
  | some .absent | none => giveUp target

/-- Settles the chosen targets of a pool. `position` is that of the first target of the list. -/
def settleChosen (path : String) (names : List String) (results : FetchResults)
    (chosen : List Nat) (position : Nat) : List Target → Run (List Target)
  | [] => pure []
  | target :: rest => do
      let target ←
        if chosen.contains position then settle path names results target else pure target
      let others ← settleChosen path names results chosen (position + 1) rest
      return target :: others

def openFields (pool : List Target) : List String :=
  Candidacy.distinct (pool.flatMap Target.unresolved)

/-- The pools with active targets only, less those that are empty then. -/
def prune (pools : List (ClassId × List Target)) : List (ClassId × List Target) :=
  (pools.map fun (cls, pool) => (cls, pool.filter Target.isActive)).filter
    fun (_, pool) => !pool.isEmpty

/-- Serves the first pool by the best candidacy for it. What is left of it goes to the end. -/
def serveFirst : Run Unit := do
  match (← get).pools with
  | [] => pure ()
  | (cls, pool) :: others =>
      modify fun state => { state with pools := others }
      match bestCandidacy? pool ((← read).catalog.gettersOf cls) with
      | none => throw (.noApplicableMethod (← className cls) (openFields pool))
      | some (getter, candidacy) =>
          let results ← getter.fetch candidacy
          let names := candidacy.selector.names
          let pool ← settleChosen getter.path names results candidacy.chosen 0 pool
          modify fun state => { state with pools := state.pools ++ prune [(cls, pool)] }

def addToPool (target : Target) : List (ClassId × List Target) → List (ClassId × List Target)
  | [] => [(target.cls, [target])]
  | (cls, pool) :: rest =>
      if cls = target.cls then (cls, pool ++ [target]) :: rest
      else (cls, pool) :: addToPool target rest

def poolSpawned : Run Unit :=
  modify fun state =>
    { state with
      pools := (state.spawned.filter Target.isActive).foldl
        (fun pools target => addToPool target pools) state.pools
      spawned := [] }

/-- The fields of a target that the cache can resolve: those that it holds and that are selected
with no fields below them. -/
def servable (state : RunState) (target : Target) : List (String × FieldValue String) :=
  target.unresolved.filterMap fun name =>
    if (target.selector.subselector? name).all Selector.isEmpty then
      (state.cached? target.cls target.id name).map fun value => (name, value)
    else none

/-- Resolves fields by cached values. Each entity that a value refers to becomes a new one without
fields. -/
def resolveCached : List (String × FieldValue String) → Target → Run Target
  | [], target => pure target
  | (name, value) :: rest, target => do
      match (← schema).field? target.cls name with
      | none => resolveCached rest target
      | some field =>
          let referenced := field.kind.target?.getD target.cls
          let value ← value.traverseEntities fun id => alloc referenced (some id) []
          let target ← resolve .cache target name value
          modify fun state =>
            { state with stats := { state.stats with cacheHits := state.stats.cacheHits + 1 } }
          resolveCached rest target

/-- Resolves what the cache holds for the targets of a pool. -/
def sweepPool : List Target → Run (List Target)
  | [] => pure []
  | target :: rest => do
      let target ← resolveCached (servable (← get) target) target
      let others ← sweepPool rest
      return target :: others

/-- Resolves what the cache holds for the targets of some pools. -/
def sweepPools : List (ClassId × List Target) → Run (List (ClassId × List Target))
  | [] => pure []
  | (cls, pool) :: rest => do
      let pool ← sweepPool pool
      let others ← sweepPools rest
      return (cls, pool) :: others

/-- Resolves what the cache holds for all waiting targets. -/
def sweep : Run Unit := do
  let pools ← sweepPools (← get).pools
  modify fun state => { state with pools := prune pools }

def round : Run Unit := do
  modify fun state =>
    { state with stats := { state.stats with rounds := state.stats.rounds + 1 } }
  serveFirst
  poolSpawned
  sweep

/-- Repeats rounds while targets wait, up to `limit` times. Tells whether no target is left. -/
def rounds : Nat → Run Bool
  | 0 => return (← get).pools.isEmpty
  | limit + 1 => do
      if (← get).pools.isEmpty then return true
      else
        round
        rounds limit

/-- Does what has to be done before the first round. -/
def prepare : Run Unit := do
  let prerequisites := (← get).prerequisites
  modify fun state => { state with prerequisites := [] }
  satisfyAll prerequisites
  poolSpawned

/-- Runs to the end, in at most `limit` rounds: prerequisites, then rounds. The cache is empty after
that. -/
def executeWithin (limit : Nat) : Run RunStats := do
  prepare
  if ← rounds limit then
    modify fun state => { state with cache := [] }
    return (← get).stats
  else throw (.tooManyRounds limit)

/-- Runs to the end, in as many rounds as the run may have. -/
def execute : Run RunStats := do
  executeWithin (← read).roundLimit

end EntityResolver.Run
