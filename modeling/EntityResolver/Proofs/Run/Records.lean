import EntityResolver.Proofs.Run.Outcome
import EntityResolver.Proofs.Value.Matched
import EntityResolver.Run.Fetch

/-!
The records of a listed response.

Of each id wanted the first record is loaded, in the order of the response. Null records, records
without id, records of strangers and later records of an id are passed over, but their ids have to
be readable.
-/

set_option autoImplicit false

namespace EntityResolver

open Run

def Json.records? : Json → Option (List Json)
  | .null => some []
  | .array records => some records
  | _ => none

namespace BatchGetter

variable {method : BatchGetter} {spec : IdSpec} {wanted seen : List String} {selector : Selector}
variable {records : List Json} {found values : OrderedMap FieldValues}
variable {context : RunContext} {before after : RunState}

/-- The id that a record says it is of. A null record is of no id. -/
def recordId? (method : BatchGetter) (spec : IdSpec) (record : Json) : Option String :=
  if record.isNull then none
  else
    match spec.load method.path record with
    | .ok id? => id?
    | .error _ => none

/-- No record, unless it is null, lacks a key of its id. -/
def Readable (method : BatchGetter) (spec : IdSpec) (records : List Json) : Prop :=
  ∀ record ∈ records, record.isNull = false → ∃ id?, spec.load method.path record = .ok id?

/-- The first record of each id wanted that has not been seen, with its id. -/
def firsts (method : BatchGetter) (spec : IdSpec) (wanted : List String) :
    List String → List Json → List (String × Json)
  | _, [] => []
  | seen, record :: rest =>
      match method.recordId? spec record with
      | none => method.firsts spec wanted seen rest
      | some id =>
          if seen.contains id || !wanted.contains id then method.firsts spec wanted seen rest
          else (id, record) :: method.firsts spec wanted (seen ++ [id]) rest

/-- These are the first records of the ids wanted, with their ids, in the order of the response. -/
structure FirstRecords (method : BatchGetter) (spec : IdSpec) (wanted : List String)
    (records : List Json) (firsts : List (String × Json)) : Prop where
  order : (firsts.map Prod.snd).Sublist records
  distinct : (firsts.map Prod.fst).Nodup
  mem_iff : ∀ id record, (id, record) ∈ firsts ↔
    id ∈ wanted ∧ records.find? (fun record => method.recordId? spec record == some id) =
      some record

theorem mem_firsts_iff {id : String} {record : Json} :
    (id, record) ∈ method.firsts spec wanted seen records ↔
      id ∉ seen ∧ id ∈ wanted ∧
        records.find? (fun record => method.recordId? spec record == some id) = some record := by
  induction records generalizing seen with
  | nil => simp [firsts]
  | cons first rest inductionHypothesis =>
      unfold firsts
      rw [List.find?_cons]
      cases own : method.recordId? spec first with
      | none => exact inductionHypothesis
      | some other =>
          by_cases same : other = id
          · subst same
            simp only [BEq.rfl, Option.some.injEq]
            split
            · rename_i passed
              rw [inductionHypothesis]
              simp only [Bool.or_eq_true, Bool.not_eq_true', List.contains_iff_mem] at passed
              rcases passed with old | strange
              · simp [old]
              · have stranger : other ∉ wanted := by simpa using strange
                simp [stranger]
            · rename_i counts
              have new : other ∉ seen ∧ other ∈ wanted := by simpa using counts
              simp [inductionHypothesis, new, eq_comm]
          · have differs : (some other == some id) = false := by simpa using same
            simp only [differs]
            split
            · exact inductionHypothesis
            · simp [inductionHypothesis, Ne.symm same]

theorem sublist_firsts (seen : List String) :
    ((method.firsts spec wanted seen records).map Prod.snd).Sublist records := by
  induction records generalizing seen with
  | nil => exact .slnil
  | cons record rest inductionHypothesis =>
      unfold firsts
      split
      · exact (inductionHypothesis seen).cons record
      · split
        · exact (inductionHypothesis seen).cons record
        · exact (inductionHypothesis _).cons_cons record

theorem nodup_firsts (seen : List String) :
    ((method.firsts spec wanted seen records).map Prod.fst).Nodup := by
  induction records generalizing seen with
  | nil => exact .nil
  | cons record rest inductionHypothesis =>
      unfold firsts
      split
      · exact inductionHypothesis seen
      · split
        · exact inductionHypothesis seen
        · refine List.nodup_cons.mpr ⟨fun again => ?_, inductionHypothesis _⟩
          obtain ⟨⟨other, later⟩, member, rfl⟩ := List.mem_map.mp again
          exact (mem_firsts_iff.mp member).1 (by simp)

theorem firstRecords_firsts : method.FirstRecords spec wanted records
    (method.firsts spec wanted [] records) :=
  ⟨sublist_firsts [], nodup_firsts [], fun id record => by simp [mem_firsts_iff]⟩

def loadEach (method : BatchGetter) (selector : Selector) (records : List (String × Json)) :
    Run (OrderedMap FieldValues) :=
  records.mapM fun entry =>
    return (entry.1, ← method.pickers.load method.path method.cls entry.2 selector)

theorem readable_of_readRecords
    (done : Yields context (method.readRecords spec wanted selector found records) before values
      after) : method.Readable spec records := by
  induction records generalizing found before with
  | nil => exact nofun
  | cons record rest inductionHypothesis =>
      have readable {found : OrderedMap FieldValues} {middle : RunState}
          (first : record.isNull = false → ∃ id?, spec.load method.path record = .ok id?)
          (done : Yields context (method.readRecords spec wanted selector found rest) middle values
            after) : method.Readable spec (record :: rest) :=
        List.forall_mem_cons.mpr ⟨first, inductionHypothesis done⟩
      unfold readRecords at done
      split at done
      · rename_i null
        exact readable (by simp [null]) done
      · obtain ⟨id?, loaded, done⟩ := yields_ofExcept_bind_iff.mp done
        have first : record.isNull = false → ∃ id?, spec.load method.path record = .ok id? :=
          fun _ => ⟨id?, loaded⟩
        split at done
        · exact readable first done
        · split at done
          · exact readable first done
          · obtain ⟨_, _, _, done⟩ := yields_bind_iff.mp done
            exact readable first done

/-- Of records with ids that can be read, the first ones of the ids wanted are loaded. -/
theorem readRecords_eq (readable : method.Readable spec records)
    (found : OrderedMap FieldValues) :
    method.readRecords spec wanted selector found records = (do
      let more ← method.loadEach selector
        (method.firsts spec wanted (OrderedMap.keys found) records)
      return found ++ more) := by
  induction records generalizing found with
  | nil => simp [readRecords, firsts, loadEach]
  | cons record rest inductionHypothesis =>
      obtain ⟨first, others⟩ := List.forall_mem_cons.mp readable
      unfold readRecords firsts recordId?
      cases null : record.isNull with
      | true => exact inductionHypothesis others found
      | false =>
          obtain ⟨id?, loaded⟩ := first null
          rw [loaded]
          cases id? with
          | none => exact inductionHypothesis others found
          | some id =>
              have seen : found.contains id = (OrderedMap.keys found).contains id := by
                rw [Bool.eq_iff_iff, List.contains_iff_mem]
                exact OrderedMap.isSome_get?_iff
              change (if (found.contains id || !wanted.contains id) = true then _ else _) = _
              rw [seen]
              simp only [Bool.false_eq_true, if_false]
              split
              · exact inductionHypothesis others found
              · rename_i counts
                have fresh : id ∉ OrderedMap.keys found := by
                  intro old
                  simp [old] at counts
                simp only [loadEach, List.mapM_cons, bind_assoc, pure_bind]
                refine bind_congr fun values => ?_
                rw [inductionHypothesis others, OrderedMap.set_of_not_mem fresh]
                simp [loadEach, OrderedMap.keys]

/-- Every record that is loaded gives values under its id. -/
theorem keys_loadEach {firsts : List (String × Json)}
    (done : Yields context (method.loadEach selector firsts) before found after) :
    OrderedMap.keys found = firsts.map Prod.fst := by
  unfold loadEach at done
  induction firsts generalizing before found with
  | nil =>
      rw [List.mapM_nil] at done
      obtain ⟨rfl, _⟩ := yields_pure_iff.mp done
      rfl
  | cons first rest inductionHypothesis =>
      simp only [List.mapM_cons, bind_assoc, pure_bind, yields_bind_iff, yields_pure_iff] at done
      obtain ⟨_, _, _, others, _, remaining, rfl, rfl⟩ := done
      exact congrArg (first.1 :: ·) (inductionHypothesis remaining)

theorem yields_loadEach_load {firsts : List (String × Json)} {id : String} {values : FieldValues}
    (done : Yields context (method.loadEach selector firsts) before found after)
    (loaded : OrderedMap.get? found id = some values) :
    ∃ record earlier later, (id, record) ∈ firsts ∧
      Yields context (method.pickers.load method.path method.cls record selector) earlier values
        later := by
  unfold loadEach at done
  induction firsts generalizing before found with
  | nil =>
      rw [List.mapM_nil] at done
      obtain ⟨rfl, _⟩ := yields_pure_iff.mp done
      cases loaded
  | cons first rest inductionHypothesis =>
      obtain ⟨own, record⟩ := first
      simp only [List.mapM_cons, bind_assoc, pure_bind, yields_bind_iff, yields_pure_iff] at done
      obtain ⟨_, _, loads, others, _, remaining, rfl, rfl⟩ := done
      rw [OrderedMap.get?_cons] at loaded
      split at loaded
      · rename_i same
        cases loaded
        exact ⟨record, _, _, same ▸ List.mem_cons_self, loads⟩
      · obtain ⟨record, earlier, later, member, loads⟩ := inductionHypothesis remaining loaded
        exact ⟨record, earlier, later, List.mem_cons_of_mem _ member, loads⟩

theorem yields_readListed_iff {ids : List String} {response : Json} {results : FetchResults} :
    Yields context (method.readListed spec ids selector response) before results after ↔
      ∃ records found, response.records? = some records ∧ method.Readable spec records ∧
        Yields context (method.loadEach selector (method.firsts spec ids [] records)) before found
          after ∧
        results = ids.map fun id =>
          (id, .found ((OrderedMap.get? found id).getD
            (nullValues context.catalog.schema method.cls selector))) := by
  have reads (records : List Json) :
      Yields context (do
        let found ← method.readRecords spec ids selector [] records
        let schema ← schema
        return ids.map fun id =>
          (id, .found ((OrderedMap.get? found id).getD (nullValues schema method.cls selector))))
        before results after ↔
      ∃ found, method.Readable spec records ∧
        Yields context (method.loadEach selector (method.firsts spec ids [] records)) before found
          after ∧
        results = ids.map fun id =>
          (id, .found ((OrderedMap.get? found id).getD
            (nullValues context.catalog.schema method.cls selector))) := by
    simp only [yields_bind_iff, yields_schema_iff, yields_pure_iff]
    constructor
    · rintro ⟨found, _, done, _, _, ⟨rfl, rfl⟩, rfl, rfl⟩
      have readable := readable_of_readRecords done
      rw [readRecords_eq readable] at done
      exact ⟨found, readable, by simpa [OrderedMap.keys] using done, rfl⟩
    · rintro ⟨found, readable, done, rfl⟩
      refine ⟨found, after, ?_, _, after, ⟨rfl, rfl⟩, rfl, rfl⟩
      rw [readRecords_eq readable]
      simpa [OrderedMap.keys] using done
  unfold readListed
  cases response with
  | null => simpa [Json.records?] using reads []
  | array records => simpa [Json.records?] using reads records
  | bool _ | int _ | float _ | str _ | object _ =>
      constructor
      · intro done
        obtain ⟨_, _, raised, _⟩ := yields_bind_iff.mp done
        exact absurd raised not_yields_throw
      · rintro ⟨_, _, ⟨⟩, _⟩

end BatchGetter

end EntityResolver
