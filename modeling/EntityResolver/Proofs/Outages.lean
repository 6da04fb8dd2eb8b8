import EntityResolver.Proofs.Scheduling
import EntityResolver.Proofs.Text.LowerCase

/-!
# Outages and absence

A single getter takes a failed call to mean that there is no such entity only where the remote says
so: it refuses the call as a fault of the caller, and names a missing object, blames a parameter
that carries the id, or gives no such code and has words for it in its message. Every other failure
ends the run as it is, and no entity loses its id by it.
-/

set_option autoImplicit false

namespace EntityResolver

inductive AbsenceReason (casing : Text.LowerCasing) (keys : List String) (members : OrderedMap Json)
    (message : String) : Prop where
  | notFound (code : members.get? "error" = some (.str "object_not_found"))
  | blamesId {name : String} (code : members.get? "error" = some (.str "param_invalid"))
      (blamed : members.get? "param_name" = some (.str name)) (isKey : name ∈ keys)
  | worded (noObject : members.get? "error" ≠ some (.str "object_not_found"))
      (noParam : members.get? "error" ≠ some (.str "param_invalid"))
      (words : "does not exist".toList <:+: (casing.lower message).toList ∨
        "no such".toList <:+: (casing.lower message).toList)

/-- The response blames the caller, and its body is an object with a message and a reason why there
is no entity with an id under these keys. -/
def DeniesEntity (casing : Text.LowerCasing) (keys : List String) (status : Nat) (body : String) :
    Prop :=
  400 ≤ status ∧ status < 500 ∧ ∃ members message,
    Json.parse? Json.remoteLevels body = some (.object members) ∧
    OrderedMap.get? members "message" = some (.str message) ∧
    AbsenceReason casing keys members message

theorem Json.asText?_eq_some_iff {value : Json} {text : String} :
    value.asText? = some text ↔ value = .str text := by
  cases value <;> simp [Json.asText?]

theorem text_eq_some_iff {members : OrderedMap Json} {key text : String} :
    (members.get? key).bind Json.asText? = some text ↔ members.get? key = some (.str text) := by
  simp [Option.bind_eq_some_iff, Json.asText?_eq_some_iff]

theorem Text.plain_doesNotExist : Text.Plain "does not exist".toList :=
  ⟨by simp, by simp⟩

theorem Text.plain_noSuch : Text.Plain "no such".toList :=
  ⟨by simp, by simp⟩

namespace SingleGetter

variable {method : SingleGetter}

theorem meansAbsence_iff (casing : Text.LowerCasing) {path message : String}
    {members : OrderedMap Json} :
    method.meansAbsence (.badRequest path ((members.get? "error").bind Json.asText?) message
        ((members.get? "param_name").bind Json.asText?)) = true ↔
      AbsenceReason casing method.id.keys members message := by
  unfold meansAbsence
  dsimp only
  split
  · rename_i code
    exact iff_of_true rfl (.notFound (text_eq_some_iff.mp code))
  · rename_i code
    have param := text_eq_some_iff.mp code
    rw [Option.any_eq_true]
    constructor
    · rintro ⟨name, blamed, isKey⟩
      exact .blamesId param (text_eq_some_iff.mp blamed) (List.contains_iff_mem.mp isKey)
    · rintro (object | ⟨_, blamed, isKey⟩ | ⟨_, noParam, _⟩)
      · simp [param] at object
      · exact ⟨_, text_eq_some_iff.mpr blamed, List.contains_iff_mem.mpr isKey⟩
      · exact absurd param noParam
  · rename_i noObject noParam
    have lowers := casing.lowers message
    rw [Bool.or_eq_true, Text.occursIn_iff, Text.occursIn_iff,
      ← Text.infix_lowers_iff lowers Text.plain_doesNotExist (by decide),
      ← Text.infix_lowers_iff lowers Text.plain_noSuch (by decide)]
    constructor
    · exact fun words => .worded (fun code => noObject (text_eq_some_iff.mpr code))
        (fun code => noParam (text_eq_some_iff.mpr code)) words
    · rintro (code | ⟨code, _, _⟩ | ⟨_, _, words⟩)
      · exact absurd (text_eq_some_iff.mpr code) noObject
      · exact absurd (text_eq_some_iff.mpr code) noParam
      · exact words

theorem meansAbsence_ofResponse_iff (casing : Text.LowerCasing) {path body : String}
    {status : Nat} :
    method.meansAbsence (.ofResponse path status body) = true ↔
      DeniesEntity casing method.id.keys status body := by
  unfold DeniesEntity RemoteFailure.ofResponse
  by_cases blames : 400 ≤ status ∧ status < 500
  · have client : RemoteFailure.isClientError status = true := by
      simpa [RemoteFailure.isClientError] using blames
    simp only [client, if_true, blames, true_and]
    cases parsed : Json.parse? Json.remoteLevels body with
    | none => simp [meansAbsence]
    | some details =>
        cases details with
        | object members =>
            simp only [Option.bind_some, Json.member?]
            cases told : (OrderedMap.get? members "message").bind Json.asText? with
            | none =>
                refine iff_of_false (by simp [meansAbsence]) ?_
                rintro ⟨_, message, ⟨⟩, hasMessage, _⟩
                cases told.symm.trans (text_eq_some_iff.mpr hasMessage)
            | some message =>
                refine (meansAbsence_iff casing).trans ?_
                constructor
                · exact fun reason => ⟨members, message, rfl, text_eq_some_iff.mp told, reason⟩
                · rintro ⟨_, other, ⟨⟩, hasMessage, reason⟩
                  cases told.symm.trans (text_eq_some_iff.mpr hasMessage)
                  exact reason
        | _ => simp [meansAbsence, Json.member?]
  · have other : RemoteFailure.isClientError status = false := by
      simpa [RemoteFailure.isClientError] using blames
    rw [← and_assoc]
    exact iff_of_false (by simp [other, meansAbsence]) fun denies => blames denies.1

end SingleGetter

namespace Run

variable {context : RunContext} {before ready state failed : RunState} {cls : ClassId}
variable {pool : List Target} {others : List (ClassId × List Target)} {getter : Getter}
variable {candidacy : Candidacy} {method : SingleGetter} {id : String} {selector : Selector}
variable {params : Params} {failure : RemoteFailure}

/-- A failed call is recorded, and nothing else happens. -/
theorem fetch_of_failure (prepared : method.params id selector = .ok params)
    (refused : context.remote before.calls ⟨method.path, params⟩ = .error failure) :
    method.fetch id selector context before =
      if method.meansAbsence failure then .ok .absent (called before ⟨method.path, params⟩)
      else .error (.remote failure) (called before ⟨method.path, params⟩) := by
  have calls : Yields context (Run.call method.path params) before (.error failure)
      (called before ⟨method.path, params⟩) := yields_call_iff.mpr ⟨refused.symm, rfl⟩
  rw [SingleGetter.fetch_eq, prepared]
  change (Run.call method.path params >>= method.hear selector) context before = _
  rw [calls.bind]
  unfold SingleGetter.hear
  dsimp only
  split <;> rfl

theorem runWithin_of_unfetched {demands : List Demand} {earlier : List Call} {error : ResolveError}
    (begun : Yields context (do Demand.placeAll demands; prepare) { calls := earlier } () ready)
    (passes : Passes context ready state) (first : state.pools = (cls, pool) :: others)
    (best : bestCandidacy? pool (context.catalog.gettersOf cls) = some (getter, candidacy))
    (fails : getter.fetch candidacy context { state.counted with pools := others } =
      .error error failed) :
    ∃ count, ∀ limit, count < limit →
      Demand.runWithin limit demands context { calls := earlier } = .error error failed := by
  obtain ⟨count, same⟩ := passes.rounds
  have serves : serveFirst context state.counted = .error error failed :=
    have firstToo : state.counted.pools = (cls, pool) :: others := first
    serveFirst_error firstToo best fails
  have round : round context state = .error error failed := bind_of_error serves _
  have waits : state.pools ≠ [] := by simp [first]
  refine ⟨count, fun limit enough => ?_⟩
  obtain ⟨more, rfl⟩ : ∃ more, limit = count + (more + 1) := ⟨limit - count - 1, by omega⟩
  have rounds : rounds (count + (more + 1)) context ready = .error error failed := by
    rw [same, rounds_succ waits]
    exact bind_of_error round _
  rw [runWithin_of_begun _ begun]
  exact bind_of_error rounds _

/-- The round that begins in the state asks a single getter for an entity by the request. -/
def Asks (context : RunContext) (state : RunState) (method : SingleGetter)
    (request : Call) : Prop :=
  ∃ cls pool others candidacy id params, state.pools = (cls, pool) :: others ∧
    bestCandidacy? pool (context.catalog.gettersOf cls) = some (.single method, candidacy) ∧
    id ∈ candidacy.ids ∧ method.params id candidacy.selector = .ok params ∧
    request = ⟨method.path, params⟩

/-- A run that comes to ask for an entity, and is refused without being told that there is none,
fails as the call does. Every entity is as before it. -/
theorem runWithin_of_outage {demands : List Demand} {earlier : List Call} {request : Call}
    (begun : Yields context (do Demand.placeAll demands; prepare) { calls := earlier } () ready)
    (passes : Passes context ready state) (asks : Asks context state method request)
    (refused : context.remote state.calls request = .error failure)
    (outage : method.meansAbsence failure = false) :
    ∃ count failed, (∀ limit, count < limit →
        Demand.runWithin limit demands context { calls := earlier } =
          .error (.remote failure) failed) ∧
      failed.arena = state.arena ∧ failed.calls = state.calls ++ [request] := by
  obtain ⟨cls, pool, others, candidacy, id, params, first, best, asked, prepared, rfl⟩ := asks
  obtain ⟨one, only⟩ := Candidacy.exists_ids_of_ofSingle (mem_of_bestCandidacy best).2
  obtain rfl : id = one := by simpa [only] using asked
  let taken : RunState := { state.counted with pools := others }
  have refusedToo : context.remote taken.calls ⟨method.path, params⟩ = .error failure := refused
  have fetch : method.fetch id candidacy.selector context taken =
      .error (.remote failure) (called taken ⟨method.path, params⟩) := by
    rw [fetch_of_failure prepared refusedToo, outage]
    rfl
  have fails : (Getter.single method).fetch candidacy context taken =
      .error (.remote failure) (called taken ⟨method.path, params⟩) := by
    simp only [Getter.fetch, only, SingleGetter.fetchAll]
    exact bind_of_error fetch _
  obtain ⟨count, ends⟩ := runWithin_of_unfetched begun passes first best fails
  exact ⟨count, _, ends, rfl, rfl⟩

end Run

namespace SingleGetter

open Run

/-- A single getter takes a failed response for absence exactly if it denies the entity, and no
other failure. What it does not take so ends the run, and leaves all entities as they are. -/
theorem outage_exact (method : SingleGetter) (casing : Text.LowerCasing) :
    (∀ path status body, method.meansAbsence (.ofResponse path status body) = true ↔
      DeniesEntity casing method.id.keys status body) ∧
    (∀ path status message, method.meansAbsence (.status path status message) = false ∧
      method.meansAbsence (.network path message) = false ∧
      method.meansAbsence (.decode path message) = false ∧
      method.meansAbsence (.unexpected message) = false) ∧
    ∀ context failure,
      (∀ before id selector params, method.params id selector = .ok params →
        context.remote before.calls ⟨method.path, params⟩ = .error failure →
        method.fetch id selector context before =
          if method.meansAbsence failure then .ok .absent (called before ⟨method.path, params⟩)
          else .error (.remote failure) (called before ⟨method.path, params⟩)) ∧
      ∀ demands earlier ready state request,
        Yields context (do Demand.placeAll demands; prepare) { calls := earlier } () ready →
        Passes context ready state → Asks context state method request →
        context.remote state.calls request = .error failure →
        method.meansAbsence failure = false →
        ∃ count failed, (∀ limit, count < limit →
            Demand.runWithin limit demands context { calls := earlier } =
              .error (.remote failure) failed) ∧
          failed.arena = state.arena ∧ failed.calls = state.calls ++ [request] :=
  ⟨fun _ _ _ => meansAbsence_ofResponse_iff casing, fun _ _ _ => ⟨rfl, rfl, rfl, rfl⟩,
    fun _ _ => ⟨fun _ _ _ _ => fetch_of_failure, fun _ _ _ _ _ => runWithin_of_outage⟩⟩

end SingleGetter

namespace Units

open Run

/-- Blames a parameter that carries no id, whatever the message says. -/
def blaming : String :=
  "\x7b\"error\": \"param_invalid\", \"message\": \"No such field\", \"param_name\": \"fields\"\x7d"

/-- Tells the parent of the first unit that it is asked for, and refuses all other calls. -/
def breaking : RunContext :=
  { context three with
    remote := fun calls _ =>
      if calls.isEmpty then .ok (record (.str "2"))
      else .error (.ofResponse "units/unit" 400 blaming) }

/-- The refusal of the second call has words for absence, but the code that comes with them is about
something else. -/
theorem outage_exact_breaking :
    getter.meansAbsence (.ofResponse "units/unit" 400 blaming) = false ∧
    ¬ DeniesEntity .letterwise ["unit_id"] 400 blaming ∧
    ∃ ready state request,
      Yields breaking (do Demand.placeAll overlapping; prepare) { calls := [] } () ready ∧
      Passes breaking ready state ∧ Asks breaking state getter request ∧
      breaking.remote state.calls request = .error (.ofResponse "units/unit" 400 blaming) ∧
      ∃ count failed, (∀ limit, count < limit →
          Demand.runWithin limit overlapping breaking { calls := [] } =
            .error (.remote (.ofResponse "units/unit" 400 blaming)) failed) ∧
        failed.arena = state.arena ∧ failed.calls = state.calls ++ [request] := by
  have outage : getter.meansAbsence (.ofResponse "units/unit" 400 blaming) = false := by
    decide +kernel
  obtain ⟨exact, _, fails⟩ := getter.outage_exact .letterwise
  obtain ⟨ready, begun, state, turn, waits, asks, refused⟩ : ∃ ready,
      Yields breaking (do Demand.placeAll overlapping; prepare) { calls := [] } () ready ∧
      ∃ state, Yields breaking round ready () state ∧ ready.pools ≠ [] ∧
        Asks breaking state getter ⟨"units/unit", [("unit_id", "2")]⟩ ∧
        breaking.remote state.calls ⟨"units/unit", [("unit_id", "2")]⟩ =
          .error (.ofResponse "units/unit" 400 blaming) :=
    ⟨_, rfl, _, rfl, List.cons_ne_nil _ _,
      ⟨_, _, _, _, "2", _, rfl, rfl, List.mem_cons_self, rfl, rfl⟩, rfl⟩
  have passes : Passes breaking ready state := .single ⟨waits, turn⟩
  refine ⟨outage, fun denies => ?_, ready, state, _, begun, passes, asks, refused,
    (fails _ _).2 _ _ _ _ _ begun passes asks refused outage⟩
  have absent := (exact "units/unit" 400 blaming).mpr denies
  rw [outage] at absent
  cases absent

end Units

end EntityResolver
